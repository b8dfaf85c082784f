import Mathlib.Logic.Relation
import SchemaRename.Proofs.Substitution.Occurrences
import SchemaRename.Proofs.Text.Cutting
import SchemaRename.Substitution

/-!
# Renaming Whole Identifiers

Substitution never cuts an identifier in two.

A hit changes three fields of a line, and each of them by one step: the
identifier becomes another one, the field on its left can have its trailing
`select` put in capitals, and the field on its right its leading `from`. No
hit changes a separator. A rule is a sequence of hits, a pass over a line is
a sequence of rules, and a text is a sequence of lines, so what a hit does
field by field is what substitution does token by token.

Separators include line feeds, so a line stays a line.

## Main definitions

* `TokenStep`: What a hit can do to a token.
* `Renamed`: A line whose tokens have come from another line's by such steps.

## Theorems

* `renamed_of_hit`: A hit changes every field by at most a step.
* `rel_apply`: What every hit of a rule does, the rule does.
* `renamed_apply`: A rule changes every field by some steps.
* `renamed_substituteLine`: And a pass over a line.
* `splitOn_substituteText`: The lines of the result are the lines of the
  text, one by one.
* `substituteText_renames_whole_identifiers`: Substitution acts on tokens.
-/

namespace SchemaRename

open SchemaRename.Pattern SchemaRename.Text SchemaRename.Line

/-- What a hit can do to a token: rename the whole of it, or put a keyword at
    one of its ends in capitals. -/
inductive TokenStep (rules : List Rule) : List Char → List Char → Prop where
  | rename (r : Rule) (hr : r ∈ rules) (token : List Char) (h : r.IsOld token) :
      TokenStep rules token r.newId.toList
  | leadingFrom (w rest : List Char) (h : Spells true "FROM".toList w) :
      TokenStep rules (w ++ rest) ("FROM".toList ++ rest)
  | trailingSelect (rest w : List Char) (h : Spells true "SELECT".toList w) :
      TokenStep rules (rest ++ w) (rest ++ "SELECT".toList)

/-- A line whose fields have come from another line's, each by steps of its
    own. -/
structure Renamed (rules : List Rule) (line line' : List Char) : Prop where
  separators_eq : separators line' = separators line
  steps : ∀ i, Relation.ReflTransGen (TokenStep rules) (field line i) (field line' i)

theorem renamed_refl (rules : List Rule) (line : List Char) : Renamed rules line line :=
  ⟨rfl, fun _ => Relation.ReflTransGen.refl⟩

theorem renamed_trans (rules : List Rule) (line line' line'' : List Char)
    (h : Renamed rules line line') (h' : Renamed rules line' line'') :
    Renamed rules line line'' :=
  ⟨h'.separators_eq.trans h.separators_eq, fun i => (h.steps i).trans (h'.steps i)⟩

/-- A hit changes every field by at most one step. -/
theorem renamed_of_hit (rules : List Rule) (r : Rule) (hr : r ∈ rules) (e : Edges)
    (hsound : e.isSound = true) (line line' : List Char) (k : Nat)
    (h : r.Hit e line line' k) : Renamed rules line line' := by
  refine ⟨h.separators_eq, ?_⟩
  intro i
  by_cases hk : i = k
  · rcases h.left with ⟨x, w, hw, hline, hline'⟩
    rw [hk, hline, hline']
    rcases e.isSound_word hsound with hword | hword
    · rw [hword] at hw ⊢
      rw [List.forall₂_nil_left_iff.mp hw]
    · rw [hword] at hw ⊢
      exact Relation.ReflTransGen.single (TokenStep.trailingSelect x w hw)
  · by_cases hk1 : i = k + 1
    · rw [hk1, h.new]
      exact Relation.ReflTransGen.single (TokenStep.rename r hr _ h.old)
    · by_cases hk2 : i = k + 2
      · rcases h.right with ⟨w, y, hw, hline, hline'⟩
        rw [hk2, hline, hline']
        rcases e.isSound_right_word hsound with hword | ⟨hword, _⟩
        · rw [hword] at hw ⊢
          rw [List.forall₂_nil_left_iff.mp hw]
        · rw [hword] at hw ⊢
          exact Relation.ReflTransGen.single (TokenStep.leadingFrom w y hw)
      · rw [h.frame i hk hk1 hk2]

theorem apply_eq_replace (r : Rule) (e : Edges) (h : r.Renames e) (line : List Char) :
    r.apply line =
      (e.needle (!r.caseSensitive) r.oldId.toList).replace r.replacement.toList line := by
  have hne : (e.needle (!r.caseSensitive) r.oldId.toList).chars ≠ [] := e.text_ne_nil _
  rw [Rule.apply, spans_of_finds r.matcher _ hne h.finds, Needle.replaceSpans_spans _ _ _ hne]

/-- What relates a line before a hit to the line after it, for every hit of a
    rule, relates a line before the rule to the line after it. -/
theorem rel_apply (r : Rule) (e : Edges) (h : r.Renames e) (rel : List Char → List Char → Prop)
    (hrefl : ∀ line, rel line line)
    (htrans : ∀ line line' line'', rel line line' → rel line' line'' → rel line line'')
    (hhit : ∀ line line' k, r.Hit e line line' k → rel line line') (line : List Char) :
    rel line (r.apply line) := by
  rw [apply_eq_replace r e h]
  refine Needle.rel_replace _ _ (e.text_ne_nil _) rel hrefl htrans ?_ line
  intro u m v hm hend
  exact hhit _ _ _ (hit_of_spells r e h u m v hm hend)

theorem renamed_apply (rules : List Rule) (r : Rule) (hr : r ∈ rules) (e : Edges)
    (h : r.Renames e) (line : List Char) : Renamed rules line (r.apply line) :=
  rel_apply r e h (Renamed rules) (renamed_refl rules) (renamed_trans rules)
    (renamed_of_hit rules r hr e h.sound) line

/-- A step writes what the rule makes of the line, also when it finds
    nothing. -/
theorem step_content (s : Substituted) (r : Rule) : (s.step r).content = r.apply s.content := by
  unfold Substituted.step
  simp only []
  split
  · rename_i hhits
    rw [beq_iff_eq, Rule.count, List.length_eq_zero_iff] at hhits
    rw [Rule.apply, hhits]
    rfl
  · rfl

theorem renamed_foldl (rules : List Rule) (hedged : ∀ r ∈ rules, ∃ e, r.Renames e)
    (rest : List Rule) : ∀ (s : Substituted), (∀ r ∈ rest, r ∈ rules) →
      Renamed rules s.content (rest.foldl Substituted.step s).content := by
  induction rest with
  | nil => intro s _; exact renamed_refl rules s.content
  | cons r rest ih =>
      intro s hsub
      have hr := hsub r List.mem_cons_self
      -- The induction is on the rules still to come; each works on what is left.
      rcases hedged r hr with ⟨e, he⟩
      have hstep := renamed_apply rules r hr e he s.content
      rw [← step_content] at hstep
      exact renamed_trans rules _ _ _ hstep
        (ih (s.step r) (fun q hq => hsub q (List.mem_cons_of_mem r hq)))

theorem renamed_substituteLine (rules : List Rule) (hedged : ∀ r ∈ rules, ∃ e, r.Renames e)
    (line : List Char) : Renamed rules line (substituteLine rules line).content := by
  rw [substituteLine]
  split
  · exact renamed_refl rules line
  · exact renamed_foldl rules hedged rules ⟨line, 0⟩ (fun _ hr => hr)

/-- If no line gets a line feed, the lines of the result are the lines of the
    text, one by one. -/
theorem splitOn_substituteText_of_keeps (rules : List Rule)
    (h : ∀ line, '\n' ∉ line → '\n' ∉ (substituteLine rules line).content) (text : List Char) :
    (substituteText rules text).content.splitOn '\n' =
      (text.splitOn '\n').map (fun line => (substituteLine rules line).content) := by
  have hcontent : (substituteText rules text).content = ['\n'].intercalate
      ((text.splitOn '\n').map (fun line => (substituteLine rules line).content)) := by
    rw [substituteText, List.map_map]
    rfl
  rw [hcontent]
  refine List.splitOn_intercalate '\n' ?_ ?_
  · intro line' hline'
    rcases List.mem_map.mp hline' with ⟨line, hline, rfl⟩
    exact h line (not_mem_of_mem_splitOn '\n' text line hline)
  · rw [ne_eq, List.map_eq_nil_iff]
    exact List.splitOn_ne_nil '\n' text

/-- A line feed is a separator, so a line of the text stays one line. -/
theorem splitOn_substituteText (rules : List Rule) (hedged : ∀ r ∈ rules, ∃ e, r.Renames e)
    (text : List Char) : (substituteText rules text).content.splitOn '\n' =
      (text.splitOn '\n').map (fun line => (substituteLine rules line).content) := by
  have hfeed : ∀ line, '\n' ∈ line ↔ '\n' ∈ separators line := by
    intro line
    rw [separators, List.mem_filter, and_iff_left (by decide)]
  refine splitOn_substituteText_of_keeps rules ?_ text
  intro line hline
  rw [hfeed, (renamed_substituteLine rules hedged line).separators_eq, ← hfeed]
  exact hline

/-- Steps neither empty a token nor make one out of nothing. -/
theorem eq_nil_iff_of_steps (rules : List Rule) (hedged : ∀ r ∈ rules, ∃ e, r.Renames e)
    (token token' : List Char) (h : Relation.ReflTransGen (TokenStep rules) token token') :
    token = [] ↔ token' = [] := by
  induction h with
  | refl => exact Iff.rfl
  | tail _ hstep ih =>
      rw [ih]
      cases hstep with
      | rename r hr token hold =>
          rcases hedged r hr with ⟨e, he⟩
          have hnew := ne_nil_of_isIdentifier _ he.new
          have hne := ne_nil_of_isIdentifier _ he.old
          constructor
          · rintro rfl
            exact absurd (List.forall₂_nil_right_iff.mp hold) hne
          · intro hnil
            exact absurd hnil hnew
      | leadingFrom w rest hw =>
          constructor
          · intro hnil
            rw [(List.append_eq_nil_iff.mp hnil).1] at hw
            exact absurd (List.forall₂_nil_right_iff.mp hw) (by decide)
          · intro hnil
            exact absurd (List.append_eq_nil_iff.mp hnil).1 (by decide)
      | trailingSelect rest w hw =>
          constructor
          · intro hnil
            rw [(List.append_eq_nil_iff.mp hnil).2] at hw
            exact absurd (List.forall₂_nil_right_iff.mp hw) (by decide)
          · intro hnil
            exact absurd (List.append_eq_nil_iff.mp hnil).2 (by decide)

/-- Substitution only renames whole identifiers. A plain map has rules, and
    whichever of them are applied, in whatever text: the result has the same
    lines, each with the same separators, and its tokens have come one by one
    from the tokens of the line. -/
theorem substituteText_renames_whole_identifiers (m : RenameMap) (expression : String)
    (h : m.isPlain = true) :
    ∃ rules, m.rules expression = .ok rules ∧
      ∀ chosen : List Rule, chosen.Sublist rules → ∀ text : List Char,
        List.Forall₂ (fun line line' => separators line' = separators line ∧
            List.Forall₂ (Relation.ReflTransGen (TokenStep chosen)) (tokens line) (tokens line'))
          (text.splitOn '\n') ((substituteText chosen text).content.splitOn '\n') := by
  rcases exists_rules m expression h with ⟨rules, hrules, hserves⟩
  refine ⟨rules, hrules, ?_⟩
  intro chosen hchosen text
  have hedged : ∀ r ∈ chosen, ∃ e, r.Renames e := by
    intro r hr
    rcases hserves r (hchosen.subset hr) with ⟨_, _, _, _, he⟩
    exact he
  rw [splitOn_substituteText chosen hedged, List.forall₂_map_right_iff, List.forall₂_same]
  intro line _
  have hrenamed := renamed_substituteLine chosen hedged line
  refine ⟨hrenamed.separators_eq, ?_⟩
  exact forall₂_tokens _ (eq_nil_iff_of_steps chosen hedged) _ _
    (forall₂_fields _ _ _ hrenamed.separators_eq hrenamed.steps)

/-- A query over two lines, with a field and its object renamed. -/
theorem substituteText_renames_whole_identifiers_query :
    ∃ rules, RenameMap.rules
        { objects := [
          { previousObject := "Legacy__c"
            newObject := "Modern__c"
            fields := [{ previousField := "Amount__c", newField := "Total__c" }] }] }
        "classes" = .ok rules ∧
      List.Forall₂ (fun line line' => separators line' = separators line ∧
          List.Forall₂ (Relation.ReflTransGen (TokenStep rules)) (tokens line) (tokens line'))
        ("select Amount__c from\n Legacy__c".toList.splitOn '\n')
        ((substituteText rules
          "select Amount__c from\n Legacy__c".toList).content.splitOn '\n') := by
  rcases substituteText_renames_whole_identifiers
    { objects := [
      { previousObject := "Legacy__c"
        newObject := "Modern__c"
        fields := [{ previousField := "Amount__c", newField := "Total__c" }] }] }
    "classes" (by decide) with ⟨rules, hrules, hall⟩
  exact ⟨rules, hrules, hall rules (List.Sublist.refl rules) _⟩

end SchemaRename
