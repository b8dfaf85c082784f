import SchemaRename.Proofs.Substitution.Leftovers

/-!
# Two Passes Suffice

After two passes no rule finds anything more.

One pass is not enough: of two occurrences that share a separator, a rule
takes the first and leaves the second. But it leaves a sparse line, and no
later rule undoes that. So when the second pass comes to a rule, the line is
sparse for it, the rule takes all that is there, and again no later rule
brings anything back.

A pass establishes something for each rule in turn and keeps it for the rules
before. Both passes are cases of this, with different things to establish.

A line can turn into a comment on the way, and is left alone from then on.

## Main definitions

* `RenameMap.isSettled`: Maps whose new names are not looked for.
* `Harmonious`: Rules of such a map.

## Theorems

* `foldl_step_establishes`: What each rule establishes and all rules keep, a
  pass establishes.
* `isComment_or_free`: A line after two passes.
* `substituteLine_of_not_isMatch`: A line on which there is nothing to find.
* `substituteText_twice_fixed`: The text after two passes is a fixed point.
-/

namespace SchemaRename

open SchemaRename.Pattern SchemaRename.Text SchemaRename.Line

/-- Whether no new name of a map is one of its old names, and no name starts
    with `FROM` or ends with `SELECT`, all without regard to letter case. -/
def RenameMap.isSettled (m : RenameMap) : Bool :=
  m.sources.all fun s =>
    isBare s.oldId.toList && isBare s.newId.toList &&
      m.sources.all fun t => folded s.newId.toList != folded t.oldId.toList

/-- Rules that are known by their edges and spare each other. -/
structure Harmonious (rules : List Rule) : Prop where
  edged : ∀ r ∈ rules, ∃ e, r.Renames e
  spares : ∀ r ∈ rules, ∀ q ∈ rules, r.Spares q

theorem harmonious_of_isSettled (m : RenameMap) (h : m.isSettled = true) (rules : List Rule)
    (hserves : ∀ r ∈ rules, r.Serves m.sources) : Harmonious rules := by
  simp only [RenameMap.isSettled, List.all_eq_true, Bool.and_eq_true, bne_iff_ne] at h
  constructor
  · intro r hr
    rcases hserves r hr with ⟨_, _, _, _, he⟩
    exact he
  · intro r hr q hq
    rcases hserves r hr with ⟨s, hs, _, hnew, _⟩
    rcases hserves q hq with ⟨t, ht, hold, _, _⟩
    refine ⟨?_, ?_, ?_⟩
    · rw [hnew, hold]
      exact (h s hs).2 t ht
    · rw [hnew]
      exact (h s hs).1.2
    · rw [hold]
      exact (h t ht).1.1

/-- What each rule establishes, under a condition, and all rules keep, as they
    keep the condition: a pass establishes it for all its rules. -/
theorem foldl_step_establishes (rules : List Rule) (cond goal : Rule → List Char → Prop)
    (hcond : ∀ r ∈ rules, ∀ q ∈ rules, ∀ line, cond q line → cond q (r.apply line))
    (hgoal : ∀ r ∈ rules, ∀ q ∈ rules, ∀ line, goal q line → goal q (r.apply line))
    (hest : ∀ r ∈ rules, ∀ line, cond r line → goal r (r.apply line)) (rest : List Rule) :
    ∀ s : Substituted, (∀ r ∈ rest, r ∈ rules) → (∀ q ∈ rules, cond q s.content) →
      ∀ q ∈ rules, q ∈ rest ∨ goal q s.content →
        goal q (rest.foldl Substituted.step s).content := by
  induction rest with
  | nil =>
      rintro s _ _ q _ (hq | hq)
      · exact absurd hq List.not_mem_nil
      · exact hq
  | cons r rest ih =>
      intro s hsub hs q hq hcase
      have hr := hsub r List.mem_cons_self
      have hsub' : ∀ p ∈ rest, p ∈ rules := fun p hp => hsub p (List.mem_cons_of_mem r hp)
      have hs' : ∀ p ∈ rules, cond p (s.step r).content := by
        intro p hp
        rw [step_content]
        exact hcond r hr p hp _ (hs p hp)
      rw [List.foldl_cons]
      refine ih (s.step r) hsub' hs' q hq ?_
      rw [step_content]
      -- Either the rule is the one just applied, or it is still to come, or done.
      rcases hcase with hmem | hdone
      · rcases List.mem_cons.mp hmem with rfl | hmem
        · exact Or.inr (hest q hr _ (hs q hq))
        · exact Or.inl hmem
      · exact Or.inr (hgoal r hr q hq _ hdone)

/-- A line that is sparse for a rule, whatever edges the rule is known by. -/
def IsSparse (r : Rule) (line : List Char) : Prop :=
  ∀ e, r.Renames e → r.Sparse e line

def IsFree (r : Rule) (line : List Char) : Prop :=
  ∀ e, r.Renames e → ∀ i, ¬ r.OccursAt e line i

theorem isSparse_keep (rules : List Rule) (h : Harmonious rules) : ∀ r ∈ rules, ∀ q ∈ rules,
    ∀ line, IsSparse q line → IsSparse q (r.apply line) := by
  intro r hr q hq line hsparse e' he'
  rcases h.edged r hr with ⟨e, he⟩
  exact sparse_of_fades q e' _ _ (fades_apply r q e e' he he' (h.spares r hr q hq) line)
    (hsparse e' he')

theorem isFree_keep (rules : List Rule) (h : Harmonious rules) : ∀ r ∈ rules, ∀ q ∈ rules,
    ∀ line, IsFree q line → IsFree q (r.apply line) := by
  intro r hr q hq line hfree e' he' i hocc
  rcases h.edged r hr with ⟨e, he⟩
  exact hfree e' he' i
    ((fades_apply r q e e' he he' (h.spares r hr q hq) line).occursAt i hocc)

/-- The first pass leaves a line that is sparse for all rules. -/
theorem isSparse_foldl (rules : List Rule) (h : Harmonious rules) (line : List Char) :
    ∀ q ∈ rules, IsSparse q (rules.foldl Substituted.step ⟨line, 0⟩).content := by
  intro q hq
  refine foldl_step_establishes rules (fun _ _ => True) IsSparse (fun _ _ _ _ _ _ => trivial)
    (isSparse_keep rules h) ?_ rules ⟨line, 0⟩ (fun _ hr => hr) (fun _ _ => trivial) q hq
    (Or.inl hq)
  intro r hr text _ e he
  exact sparse_apply r e he (h.spares r hr r hr) text

/-- The second pass leaves a line that is free of all rules. -/
theorem isFree_foldl (rules : List Rule) (h : Harmonious rules) (line : List Char)
    (hsparse : ∀ q ∈ rules, IsSparse q line) :
    ∀ q ∈ rules, IsFree q (rules.foldl Substituted.step ⟨line, 0⟩).content := by
  intro q hq
  refine foldl_step_establishes rules IsSparse IsFree (isSparse_keep rules h)
    (isFree_keep rules h) ?_ rules ⟨line, 0⟩ (fun _ hr => hr) hsparse q hq (Or.inl hq)
  intro r hr text htext e he i
  exact not_occursAt_apply r e he (h.spares r hr r hr) text (htext e he) i

/-- A line after two passes is a comment, or no rule occurs on it. -/
theorem isComment_or_free (rules : List Rule) (h : Harmonious rules) (line : List Char) :
    isComment (substituteLine rules (substituteLine rules line).content).content = true ∨
      ∀ r ∈ rules,
        IsFree r (substituteLine rules (substituteLine rules line).content).content := by
  by_cases hline : isComment line = true
  · left
    rw [substituteLine, substituteLine, if_pos hline, if_pos hline]
    exact hline
  · have hfirst : substituteLine rules line = rules.foldl Substituted.step ⟨line, 0⟩ := by
      rw [substituteLine, if_neg hline]
    rw [hfirst]
    by_cases hagain : isComment (rules.foldl Substituted.step ⟨line, 0⟩).content = true
    · left
      rw [substituteLine, if_pos hagain]
      exact hagain
    · right
      rw [substituteLine, if_neg hagain]
      exact isFree_foldl rules h _ (isSparse_foldl rules h line)

theorem isMatch_of_isFree (r : Rule) (e : Edges) (h : r.Renames e) (line : List Char)
    (hfree : IsFree r line) : r.isMatch line = false := by
  cases hmatch : r.isMatch line with
  | false => rfl
  | true =>
      rw [Rule.isMatch, occursIn_of_finds r.matcher _ h.finds] at hmatch
      rcases Needle.exists_of_occursIn _ line hmatch with ⟨u, rest, rfl, hocc⟩
      rcases (Needle.occursAt_iff _ rest).mp hocc with ⟨m, v, rfl, hm, hend⟩
      exact absurd (occursAt_of_spells r e h u m v hm hend) (hfree e h _)

/-- A rule that matches nowhere counts nothing, and the step is skipped. -/
theorem step_of_not_isMatch (r : Rule) (n : Needle) (hne : n.chars ≠ [])
    (hfinds : Finds r.matcher n) (s : Substituted) (h : r.isMatch s.content = false) :
    s.step r = s := by
  rw [Rule.isMatch, occursIn_of_finds r.matcher n hfinds] at h
  have hcount : r.count s.content = 0 := by
    rw [Rule.count, spans_of_finds r.matcher n hne hfinds, Needle.spans,
      Needle.spansFrom_eq_nil _ _ 0 0 h, List.length_nil]
  rw [Substituted.step, hcount]
  rfl

theorem foldl_step_of_not_isMatch (rules : List Rule) (s : Substituted)
    (hfinds : ∀ r ∈ rules, ∃ n : Needle, n.chars ≠ [] ∧ Finds r.matcher n)
    (h : ∀ r ∈ rules, r.isMatch s.content = false) : rules.foldl Substituted.step s = s := by
  induction rules with
  | nil => rfl
  | cons r rules ih =>
      rcases hfinds r List.mem_cons_self with ⟨n, hne, hfind⟩
      rw [List.foldl_cons, step_of_not_isMatch r n hne hfind s (h r List.mem_cons_self)]
      exact ih (fun q hq => hfinds q (List.mem_cons_of_mem r hq))
        (fun q hq => h q (List.mem_cons_of_mem r hq))

/-- A comment, or a line that no rule matches, is left as it is. -/
theorem substituteLine_of_not_isMatch (rules : List Rule)
    (hedged : ∀ r ∈ rules, ∃ e, r.Renames e) (line : List Char)
    (h : isComment line = false → ∀ r ∈ rules, r.isMatch line = false) :
    substituteLine rules line = ⟨line, 0⟩ := by
  rw [substituteLine]
  split
  · rfl
  · rename_i hcomment
    refine foldl_step_of_not_isMatch rules ⟨line, 0⟩ ?_ (h (Bool.eq_false_iff.mpr hcomment))
    intro r hr
    rcases hedged r hr with ⟨e, he⟩
    exact ⟨_, e.text_ne_nil _, he.finds⟩

/-- Two passes reach a fixed point. With a plain map whose new names are not
    looked for, whichever of its rules are applied and to whatever text: after
    two passes no rule matches a line that is not a comment, and a third pass
    makes no replacement and changes nothing. -/
theorem substituteText_twice_fixed (m : RenameMap) (expression : String)
    (hplain : m.isPlain = true) (hsettled : m.isSettled = true) :
    ∃ rules, m.rules expression = .ok rules ∧
      ∀ chosen : List Rule, chosen.Sublist rules → ∀ text twice : List Char,
        twice = (substituteText chosen (substituteText chosen text).content).content →
          (∀ line ∈ twice.splitOn '\n', isComment line = false →
            ∀ r ∈ chosen, r.isMatch line = false) ∧
          substituteText chosen twice = ⟨twice, 0⟩ := by
  rcases exists_rules m expression hplain with ⟨rules, hrules, hserves⟩
  refine ⟨rules, hrules, ?_⟩
  intro chosen hchosen text twice htwice
  have h : Harmonious chosen := harmonious_of_isSettled m hsettled chosen
    (fun r hr => hserves r (hchosen.subset hr))
  have hquiet : ∀ line ∈ twice.splitOn '\n', isComment line = false →
      ∀ r ∈ chosen, r.isMatch line = false := by
    intro line' hline' hcomment r hr
    rw [htwice, splitOn_substituteText chosen h.edged, splitOn_substituteText chosen h.edged,
      List.map_map] at hline'
    rcases List.mem_map.mp hline' with ⟨line, _, rfl⟩
    rcases h.edged r hr with ⟨e, he⟩
    rcases isComment_or_free chosen h line with hyes | hfree
    · exact absurd hyes (by rw [← Bool.not_eq_false, not_not]; exact hcomment)
    · exact isMatch_of_isFree r e he _ (hfree r hr)
  refine ⟨hquiet, ?_⟩
  -- On each line a third pass finds a comment, or nothing to replace.
  have hlines : (twice.splitOn '\n').map (substituteLine chosen) =
      (twice.splitOn '\n').map (fun line => ⟨line, 0⟩) := by
    refine List.map_congr_left ?_
    intro line hline
    exact substituteLine_of_not_isMatch chosen h.edged line (hquiet line hline)
  have hcontent : ((twice.splitOn '\n').map (fun line => (⟨line, 0⟩ : Substituted))).map
      (·.content) = twice.splitOn '\n' := by
    rw [List.map_map]
    exact List.map_id _
  have hcount : ∀ lines : List (List Char), ((lines.map (fun line =>
      (⟨line, 0⟩ : Substituted))).map (·.replacements)).foldr (· + ·) 0 = 0 := by
    intro lines
    induction lines with
    | nil => rfl
    | cons line lines ih =>
        rw [List.map_cons, List.map_cons, List.foldr_cons, ih]
  rw [substituteText, hlines, hcontent, hcount, List.intercalate_splitOn]

/-- Two neighbours that share a blank, which one pass does not settle. -/
theorem substituteText_twice_fixed_neighbours :
    ∃ rules, RenameMap.rules
        { objects := [
          { previousObject := "Legacy__c"
            newObject := "Modern__c"
            fields := [{ previousField := "Amount__c", newField := "Total__c" }] }] }
        "classes" = .ok rules ∧
      ∀ twice, twice = (substituteText rules
          (substituteText rules "a Legacy__c Legacy__c b".toList).content).content →
        substituteText rules twice = ⟨twice, 0⟩ := by
  rcases substituteText_twice_fixed
    { objects := [
      { previousObject := "Legacy__c"
        newObject := "Modern__c"
        fields := [{ previousField := "Amount__c", newField := "Total__c" }] }] }
    "classes" (by decide) (by decide) with ⟨rules, hrules, hall⟩
  refine ⟨rules, hrules, ?_⟩
  intro twice htwice
  exact (hall rules (List.Sublist.refl rules) _ twice htwice).2

end SchemaRename
