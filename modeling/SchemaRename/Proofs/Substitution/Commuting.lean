import Mathlib.Data.List.Nodup
import SchemaRename.Proofs.Substitution.Taken
import SchemaRename.Proofs.Substitution.TwoPasses

/-!
# Renames Commute

The order of independent renames does not matter.

Two rules that look for different identifiers, and of which neither writes
what the other looks for, leave each other's occurrences where they are. So
each of them takes the same numbers before the other and after it. A number
taken writes three fields, and where both rules write the same field they
write over different ends of it. Hence the two rules can change places, on
every line and with the same counts.

The rules of a map come in blocks, one for each identifier. Reordering a map
reorders its blocks and leaves each block as it is, so what can change places
rule by rule can change places block by block, and map by map.

## Main definitions

* `Rule.Independent`: Rules that have nothing to do with each other.
* `RenameMap.isDistinct`: Maps that rename no identifier twice.
* `RenameMap.Reordered`: A map with its lists in another order.

## Theorems

* `occursAt_apply_iff`: Independent rules leave each other's occurrences.
* `fieldAfter_comm`: They write different parts of a field.
* `step_comm`: They can change places.
* `perm_sources`: A reordered map has the same identifiers.
* `substituteText_reordered`: A reordered map gives the same result.
-/

namespace SchemaRename

open SchemaRename.Pattern SchemaRename.Text SchemaRename.Line

section Rules

/-- Rules for different identifiers that write nothing the other one looks
    for. -/
structure Rule.Independent (r q : Rule) : Prop where
  forward : r.Spares q
  backward : q.Spares r
  old : folded r.oldId.toList ≠ folded q.oldId.toList

theorem Rule.Independent.symm {r q : Rule} (h : r.Independent q) : q.Independent r :=
  ⟨h.backward, h.forward, h.old.symm⟩

/-- No field holds the identifiers of both rules. -/
theorem Rule.Independent.not_isOld {r q : Rule} (h : r.Independent q) (token : List Char)
    (hr : r.IsOld token) : ¬ q.IsOld token := by
  intro hq
  exact h.old ((folded_of_spells _ _ _ hr).symm.trans (folded_of_spells _ _ _ hq))

variable (r q : Rule) (e f : Edges)

/-- Independent rules leave each other's occurrences where they are. -/
theorem occursAt_apply_iff (hr : r.Renames e) (hq : q.Renames f) (h : r.Independent q)
    (line : List Char) (i : Nat) : q.OccursAt f (r.apply line) i ↔ q.OccursAt f line i := by
  refine rel_apply r e hr (fun line line' => ∀ i, q.OccursAt f line' i ↔ q.OccursAt f line i)
    (fun _ _ => Iff.rfl) (fun _ _ _ h₁ h₂ i => (h₂ i).trans (h₁ i)) ?_ line i
  intro line line' k hit i
  constructor
  · exact (fades_of_hit r q e f hr hq h.forward line line' k hit).occursAt i
  · intro hocc
    -- The renamed field held the other identifier, so it is not this occurrence.
    have hne : i ≠ k := by
      rintro rfl
      exact h.not_isOld _ hit.old hocc.old
    exact occursAt_of_touches q e f hr.sound hq h.forward.bareOld line' line k
      (hit.touches_back hr h.backward.bareOld) i hne hocc

/-- The word of a right edge starts the field behind the identifier. -/
theorem right_word_of_occursAt (line : List Char) (k : Nat) (h : r.OccursAt e line k) :
    ∃ w y, Spells (!r.caseSensitive) e.right.word w ∧ field line (k + 2) = w ++ y := by
  have hright := h.right
  cases hedge : e.right with
  | lineEnd => exact ⟨[], _, List.Forall₂.nil, rfl⟩
  | pair c d => exact ⟨[], _, List.Forall₂.nil, rfl⟩
  | sep c word =>
      rw [hedge] at hright
      exact hright.2

/-- On a field that holds another identifier a rule writes nothing. -/
theorem fieldAfter_of_isOld (hq : q.Renames f) (h : r.Independent q) (line : List Char)
    (taken : List Nat) (htaken : ∀ k ∈ taken, q.OccursAt f line k) (i : Nat)
    (hold : r.IsOld (field line i)) (s : List Char) : q.fieldAfter f taken i s = s := by
  have hbare := isBare_of_isOld r _ h.backward.bareOld hold
  have hnot : i ∉ taken.map (· + 1) := by
    intro hmem
    rcases List.mem_map.mp hmem with ⟨k, hk, rfl⟩
    exact h.not_isOld _ hold (htaken k hk).old
  -- A bare name has no keyword at its ends, so the edges there have no words.
  have hend : (if i ∈ taken then f.word else []) = [] := by
    split
    · next hmem =>
        rcases (htaken i hmem).word with ⟨x, w, hw, hfield⟩
        rcases f.isSound_word hq.sound with hword | hword
        · exact hword
        · rw [hword] at hw
          exact absurd hfield (ne_append_select_of_isBare _ _ hbare rfl _ x w hw)
    · rfl
  have hstart : (if i ∈ taken.map (· + 2) then f.right.word else []) = [] := by
    split
    · next hmem =>
        rcases List.mem_map.mp hmem with ⟨k, hk, rfl⟩
        rcases right_word_of_occursAt q f line k (htaken k hk) with ⟨w, y, hw, hfield⟩
        rcases f.isSound_right_word hq.sound with hword | ⟨hword, _⟩
        · exact hword
        · rw [hword] at hw
          exact absurd hfield (ne_from_append_of_isBare _ _ hbare rfl _ w y hw)
    · rfl
  unfold Rule.fieldAfter
  rw [if_neg hnot, hend, hstart, putStart_nil, putEnd_nil]

/-- A word that one rule writes over the end of a field and a word that another
    rule writes over its start do not meet. -/
theorem putEnd_putStart_comm (hr : r.Renames e) (hq : q.Renames f) (line : List Char)
    (taken taken' : List Nat) (htaken : ∀ k ∈ taken, r.OccursAt e line k)
    (htaken' : ∀ k ∈ taken', q.OccursAt f line k) (i : Nat) :
    putEnd (if i ∈ taken then e.word else [])
        (putStart (if i ∈ taken'.map (· + 2) then f.right.word else []) (field line i)) =
      putStart (if i ∈ taken'.map (· + 2) then f.right.word else [])
        (putEnd (if i ∈ taken then e.word else []) (field line i)) := by
  by_cases hleft : i ∈ taken
  · by_cases hright : i ∈ taken'.map (· + 2)
    · rw [if_pos hleft, if_pos hright]
      rcases (htaken i hleft).word with ⟨x, v, hv, hfield⟩
      rcases List.mem_map.mp hright with ⟨k, hk, rfl⟩
      rcases right_word_of_occursAt q f line k (htaken' k hk) with ⟨w, y, hw, hfield'⟩
      rcases e.isSound_word hr.sound with hword | hword
      · rw [hword, putEnd_nil, putEnd_nil]
      · rcases f.isSound_right_word hq.sound with hfrom | ⟨hfrom, _⟩
        · rw [hfrom, putStart_nil, putStart_nil]
        · -- Both words are there, with something between them.
          rw [hword] at hv ⊢
          rw [hfrom] at hw ⊢
          rcases exists_between _ _ w y x v hw hv (hfield'.symm.trans hfield) with ⟨z, rfl, rfl⟩
          rw [hfield, putEnd_append _ _ _ hv.length_eq.symm, List.append_assoc, List.append_assoc,
            putStart_append _ _ _ hw.length_eq.symm, putStart_append _ _ _ hw.length_eq.symm,
            ← List.append_assoc, putEnd_append _ _ _ hv.length_eq.symm, List.append_assoc]
    · rw [if_neg hright, putStart_nil, putStart_nil]
  · rw [if_neg hleft, putEnd_nil, putEnd_nil]

/-- Independent rules write different parts of a field. -/
theorem fieldAfter_comm (hr : r.Renames e) (hq : q.Renames f) (h : r.Independent q)
    (line : List Char) (taken taken' : List Nat) (htaken : ∀ k ∈ taken, r.OccursAt e line k)
    (htaken' : ∀ k ∈ taken', q.OccursAt f line k) (i : Nat) :
    r.fieldAfter e taken i (q.fieldAfter f taken' i (field line i)) =
      q.fieldAfter f taken' i (r.fieldAfter e taken i (field line i)) := by
  by_cases hone : i ∈ taken.map (· + 1)
  · have hold : r.IsOld (field line i) := by
      rcases List.mem_map.mp hone with ⟨k, hk, rfl⟩
      exact (htaken k hk).old
    rw [fieldAfter_of_isOld r q f hq h line taken' htaken' i hold,
      fieldAfter_of_isOld r q f hq h line taken' htaken' i hold]
  · by_cases hone' : i ∈ taken'.map (· + 1)
    · have hold : q.IsOld (field line i) := by
        rcases List.mem_map.mp hone' with ⟨k, hk, rfl⟩
        exact (htaken' k hk).old
      rw [fieldAfter_of_isOld q r e hr h.symm line taken htaken i hold,
        fieldAfter_of_isOld q r e hr h.symm line taken htaken i hold]
    · -- Only the ends of the field are written, and each end by one rule at most.
      have hcomm := putEnd_putStart_comm r q e f hr hq line taken taken' htaken htaken' i
      have hcomm' := putEnd_putStart_comm q r f e hq hr line taken' taken htaken' htaken i
      have hends : i ∈ taken → i ∉ taken' := fun hk hk' =>
        h.not_isOld _ (htaken i hk).old (htaken' i hk').old
      have hstarts : i ∈ taken.map (· + 2) → i ∉ taken'.map (· + 2) := by
        intro hk hk'
        rcases List.mem_map.mp hk with ⟨k, hmem, rfl⟩
        rcases List.mem_map.mp hk' with ⟨j, hmem', hjk⟩
        obtain rfl : j = k := by omega
        exact h.not_isOld _ (htaken j hmem).old (htaken' j hmem').old
      have hboth := e.isSound_right_word hr.sound
      have hboth' := f.isSound_right_word hq.sound
      unfold Rule.fieldAfter
      rw [if_neg hone, if_neg hone', if_neg hone, if_neg hone']
      by_cases hend : i ∈ taken
      · rw [if_neg (hends hend), putEnd_nil, putEnd_nil]
        rw [if_pos hend] at hcomm ⊢
        by_cases hword : e.word = []
        · rw [hword, putEnd_nil, putEnd_nil]
          by_cases hstart : i ∈ taken.map (· + 2)
          · rw [if_neg (hstarts hstart), putStart_nil, putStart_nil]
          · rw [if_neg hstart, putStart_nil, putStart_nil]
        · have hnone : e.right.word = [] := by
            rcases hboth with hnone | ⟨_, hnil⟩
            · exact hnone
            · exact absurd hnil hword
          rw [hnone, ite_self, putStart_nil, putStart_nil]
          exact hcomm
      · rw [if_neg hend, putEnd_nil, putEnd_nil]
        by_cases hstart : i ∈ taken.map (· + 2)
        · rw [if_neg (hstarts hstart), putStart_nil, putStart_nil]
          exact hcomm'.symm
        · rw [if_neg hstart, putStart_nil, putStart_nil]

/-- Independent rules can change places on every line, and each of them makes
    as many replacements before the other as after it. -/
theorem apply_comm (hr : r.Renames e) (hq : q.Renames f) (h : r.Independent q)
    (line : List Char) :
    r.apply (q.apply line) = q.apply (r.apply line) ∧
      r.count (q.apply line) = r.count line ∧ q.count (r.apply line) = q.count line := by
  have hrNew := h.forward.bareNew
  have hrOld := h.backward.bareOld
  have hqNew := h.backward.bareNew
  have hqOld := h.forward.bareOld
  rcases exists_taken r e hr hrNew hrOld line with ⟨taken, hnodup, hmem, hcount, hsep, hfield⟩
  rcases exists_taken q f hq hqNew hqOld line with
    ⟨taken', hnodup', hmem', hcount', hsep', hfield'⟩
  -- What the one takes does not depend on whether the other comes first.
  rcases apply_of_taken r e hr hrNew hrOld (q.apply line) taken hnodup (fun k => (hmem k).trans
      (takes_congr r e line _ (occursAt_apply_iff q r f e hq hr h.symm line) k).symm)
    with ⟨hcount₂, hsep₂, hfield₂⟩
  rcases apply_of_taken q f hq hqNew hqOld (r.apply line) taken' hnodup' (fun k => (hmem' k).trans
      (takes_congr q f line _ (occursAt_apply_iff r q e f hr hq h line) k).symm)
    with ⟨hcount₃, hsep₃, hfield₃⟩
  refine ⟨?_, hcount₂.trans hcount.symm, hcount₃.trans hcount'.symm⟩
  refine eq_of_fields _ _ ?_ ?_
  · rw [hsep₂, hsep', hsep₃, hsep]
  · intro i
    rw [hfield₂ i, hfield' i, hfield₃ i, hfield i]
    exact fieldAfter_comm r q e f hr hq h line taken taken'
      (fun k hk => occursAt_of_takes r e line k ((hmem k).mp hk))
      (fun k hk => occursAt_of_takes q f line k ((hmem' k).mp hk)) i

theorem step_eq (s : Substituted) :
    s.step r = ⟨r.apply s.content, s.replacements + r.count s.content⟩ := by
  have hcontent := step_content s r
  unfold Substituted.step at hcontent ⊢
  simp only at hcontent ⊢
  split
  · next hhits =>
      rw [if_pos hhits] at hcontent
      rw [beq_iff_eq] at hhits
      rw [← hcontent, hhits, Nat.add_zero]
  · rfl

theorem step_comm (hr : r.Renames e) (hq : q.Renames f) (h : r.Independent q) (s : Substituted) :
    (s.step r).step q = (s.step q).step r := by
  rcases apply_comm r q e f hr hq h s.content with ⟨happly, hcount, hcount'⟩
  simp only [step_eq, Substituted.mk.injEq]
  refine ⟨happly.symm, ?_⟩
  rw [hcount, hcount']
  omega

end Rules

/-- Two lists of rules of which each can change places with each of the other
    can change places as a whole. -/
theorem foldl_step_comm (rules rules' : List Rule)
    (h : ∀ r ∈ rules, ∀ q ∈ rules', ∀ s : Substituted, (s.step r).step q = (s.step q).step r)
    (s : Substituted) :
    rules'.foldl Substituted.step (rules.foldl Substituted.step s) =
      rules.foldl Substituted.step (rules'.foldl Substituted.step s) := by
  -- One rule goes past the whole of the other list first.
  have hpast : ∀ r ∈ rules, ∀ (rest : List Rule), (∀ q ∈ rest, q ∈ rules') →
      ∀ s : Substituted, rest.foldl Substituted.step (s.step r) =
        (rest.foldl Substituted.step s).step r := by
    intro r hr rest
    induction rest with
    | nil => intro _ s; rfl
    | cons q rest ih =>
        intro hsub s
        rw [List.foldl_cons, List.foldl_cons, h r hr q (hsub q List.mem_cons_self)]
        exact ih (fun p hp => hsub p (List.mem_cons_of_mem q hp)) (s.step q)
  clear h
  induction rules generalizing s with
  | nil => rfl
  | cons r rules ih =>
      rw [List.foldl_cons, List.foldl_cons,
        ih (s.step r) (fun p hp => hpast p (List.mem_cons_of_mem r hp)),
        hpast r List.mem_cons_self rules' (fun q hq => hq) s]

/-- Whether a map renames no identifier twice, without regard to letter
    case. -/
def RenameMap.isDistinct (m : RenameMap) : Bool :=
  decide (m.sources.map fun s => folded s.oldId.toList).Nodup

/-- An object with its fields in another order. -/
def ObjectRename.Reordered (object object' : ObjectRename) : Prop :=
  object.fields.Perm object'.fields ∧ object' = { object with fields := object'.fields }

/-- A map with its objects in another order, and the fields of each object
    too. -/
def RenameMap.Reordered (m m' : RenameMap) : Prop :=
  ∃ objects, List.Forall₂ ObjectRename.Reordered m.objects objects ∧
    objects.Perm m'.objects ∧ m' = { m with objects := m'.objects }

/-- A reordered map has the same identifiers. -/
theorem perm_sources (m m' : RenameMap) (h : m.Reordered m') : m.sources.Perm m'.sources := by
  rcases h with ⟨objects, hfields, hobjects, -⟩
  refine List.Perm.trans ?_ (hobjects.flatMap_right _)
  unfold RenameMap.sources
  clear hobjects
  generalize m.objects = before at hfields
  induction hfields with
  | nil => exact List.Perm.refl _
  | cons hobject _ ih =>
      rename_i object object' _ _ _
      rw [List.flatMap_cons, List.flatMap_cons]
      -- The object stands in front of its fields, and only they have moved.
      have hsource : object'.source = object.source := by
        rw [hobject.2]
        rfl
      rw [hsource]
      exact ((hobject.1.map FieldRename.source).cons object.source).append ih

theorem isPlain_of_reordered (m m' : RenameMap) (h : m.Reordered m') (hplain : m.isPlain = true) :
    m'.isPlain = true := by
  have hperm := perm_sources m m' h
  rcases h with ⟨_, _, _, hmap⟩
  have hglobals : m'.globals = m.globals := by rw [hmap]
  unfold RenameMap.isPlain at hplain ⊢
  rw [hglobals, ← hperm.all_eq]
  exact hplain

/-- Rules of different identifiers of a settled map are independent. -/
theorem independent_of_isSettled (m : RenameMap) (h : m.isSettled = true) (s t : RuleSource)
    (hs : s ∈ m.sources) (ht : t ∈ m.sources)
    (hne : folded s.oldId.toList ≠ folded t.oldId.toList) (r q : Rule) (hr : r.Serves [s])
    (hq : q.Serves [t]) : r.Independent q := by
  have hserves : ∀ p ∈ [r, q], p.Serves m.sources := by
    intro p hp
    rcases List.mem_cons.mp hp with rfl | hp
    · rcases hr with ⟨s', hs', hrest⟩
      rw [List.mem_singleton.mp hs'] at hrest
      exact ⟨s, hs, hrest⟩
    · rw [List.mem_singleton.mp hp]
      rcases hq with ⟨t', ht', hrest⟩
      rw [List.mem_singleton.mp ht'] at hrest
      exact ⟨t, ht, hrest⟩
  have hall := harmonious_of_isSettled m h [r, q] hserves
  refine ⟨hall.spares r (by simp) q (by simp), hall.spares q (by simp) r (by simp), ?_⟩
  rcases hr with ⟨s', hs', hrold, -⟩
  rcases hq with ⟨t', ht', hqold, -⟩
  rw [hrold, hqold, List.mem_singleton.mp hs', List.mem_singleton.mp ht']
  exact hne

/-- The blocks of a settled map can change places. -/
theorem foldl_block_comm (m : RenameMap) (hplain : m.isPlain = true) (hsettled : m.isSettled = true)
    (hdistinct : m.isDistinct = true) (s : RuleSource) (hs : s ∈ m.sources) (t : RuleSource)
    (ht : t ∈ m.sources) (state : Substituted) :
    (t.block m.globals .builtIn).foldl Substituted.step
        ((s.block m.globals .builtIn).foldl Substituted.step state) =
      (s.block m.globals .builtIn).foldl Substituted.step
        ((t.block m.globals .builtIn).foldl Substituted.step state) := by
  by_cases hst : s = t
  · rw [hst]
  · have hserves := (rules_eq_flatMap m "" hplain).2
    have hne : folded s.oldId.toList ≠ folded t.oldId.toList := fun heq =>
      hst (List.inj_on_of_nodup_map (of_decide_eq_true hdistinct) hs ht heq)
    refine foldl_step_comm _ _ ?_ state
    intro r hr q hq
    have hindependent := independent_of_isSettled m hsettled s t hs ht hne r q
      (hserves s hs r hr) (hserves t ht q hq)
    rcases hserves s hs r hr with ⟨_, _, _, _, e, he⟩
    rcases hserves t ht q hq with ⟨_, _, _, _, f, hf⟩
    exact step_comm r q e f he hf hindependent

/-- Independent renames commute. With a plain map whose old names are distinct
    and whose new names are not looked for: however its objects are reordered,
    and the fields of each of them, the rules exist and give the same text, with
    the same number of replacements. -/
theorem substituteText_reordered (m m' : RenameMap) (expression : String)
    (hplain : m.isPlain = true) (hsettled : m.isSettled = true)
    (hdistinct : m.isDistinct = true) (hreordered : m.Reordered m') :
    ∃ rules rules', m.rules expression = .ok rules ∧ m'.rules expression = .ok rules' ∧
      ∀ text : List Char, substituteText rules' text = substituteText rules text := by
  have hperm := perm_sources m m' hreordered
  have hglobals : m'.globals = m.globals := by
    rcases hreordered with ⟨_, _, _, hmap⟩
    rw [hmap]
  refine ⟨_, _, (rules_eq_flatMap m expression hplain).1,
    (rules_eq_flatMap m' expression (isPlain_of_reordered m m' hreordered hplain)).1, ?_⟩
  rw [hglobals]
  -- A line goes through the blocks one by one, and blocks can change places.
  have hfold : ∀ state : Substituted,
      (m'.sources.flatMap (·.block m.globals .builtIn)).foldl Substituted.step state =
        (m.sources.flatMap (·.block m.globals .builtIn)).foldl Substituted.step state := by
    intro state
    rw [List.foldl_flatMap, List.foldl_flatMap]
    exact (hperm.foldl_eq' (foldl_block_comm m hplain hsettled hdistinct) state).symm
  have hline : substituteLine (m'.sources.flatMap (·.block m.globals .builtIn)) =
      substituteLine (m.sources.flatMap (·.block m.globals .builtIn)) := by
    funext line
    unfold substituteLine
    rw [hfold]
  intro text
  unfold substituteText
  rw [hline]

/-- A map with two objects, one of them with two fields. -/
def neighbourRenames : RenameMap :=
  { objects := [
      { previousObject := "Legacy__c"
        newObject := "Modern__c"
        fields := [
          { previousField := "Amount__c", newField := "Total__c" },
          { previousField := "Rate__c", newField := "Share__c" }] },
      { previousObject := "Vendor__c", newObject := "Account" }] }

/-- The same map from back to front. -/
def neighbourRenamesBackwards : RenameMap :=
  { objects := [
      { previousObject := "Vendor__c", newObject := "Account" },
      { previousObject := "Legacy__c"
        newObject := "Modern__c"
        fields := [
          { previousField := "Rate__c", newField := "Share__c" },
          { previousField := "Amount__c", newField := "Total__c" }] }] }

theorem reordered_neighbourRenames : neighbourRenames.Reordered neighbourRenamesBackwards := by
  refine ⟨neighbourRenamesBackwards.objects.reverse, ?_, List.reverse_perm _, rfl⟩
  refine .cons ⟨List.Perm.swap _ _ _, rfl⟩ (.cons ⟨List.Perm.refl _, rfl⟩ .nil)

/-- Names that share their separators, and a keyword on either side. -/
theorem substituteText_reordered_neighbours :
    ∃ rules rules', neighbourRenames.rules "classes" = .ok rules ∧
      neighbourRenamesBackwards.rules "classes" = .ok rules' ∧
      substituteText rules' "select Rate__c from Legacy__c Vendor__c ".toList =
        substituteText rules "select Rate__c from Legacy__c Vendor__c ".toList := by
  rcases substituteText_reordered neighbourRenames neighbourRenamesBackwards "classes" (by decide)
    (by decide) (by decide) reordered_neighbourRenames with ⟨rules, rules', hrules, hrules', h⟩
  exact ⟨rules, rules', hrules, hrules', h _⟩

end SchemaRename
