import Mathlib.Algebra.GroupWithZero.Nat
import SchemaRename.Proofs.Substitution.Commuting
import SchemaRename.Proofs.Substitution.Hazards

/-!
# Substitution Line by Line

What a pass does to a text is what it does to each of its lines.

A text is cut at its line feeds, and nothing that a rule matches reaches over
one. So a text that is put together from two is handled as the two are, and
the replacements add up. This holds whatever the rules are: a fragment of the
map can anchor a pattern at a line end, match the empty text or ask for a line
feed, but it is given one line at a time.

A comment is not shown to the rules at all. A line that the rules see is
changed only where a match is replaced, so where nothing is counted nothing
has changed, and all that can bring in a line feed is a replacement that
holds one.

## Theorems

* `substituteText_append`: A text that is put together from two.
* `substituteText_of_line`: A text of one line.
* `substituteText_of_replacements_eq_zero`: A text without replacements.
* `mem_apply`: What a rule writes comes from the text or the replacement.
* `length_splitOn_substituteText`: The number of lines.
* `substituteText_line_by_line`: All of it together.
-/

namespace SchemaRename

open SchemaRename.Pattern SchemaRename.Text

theorem intercalate_append_of_ne_nil (sep : List Char) (xs ys : List (List Char)) (hxs : xs ≠ [])
    (hys : ys ≠ []) :
    sep.intercalate (xs ++ ys) = sep.intercalate xs ++ sep ++ sep.intercalate ys := by
  induction xs with
  | nil => exact absurd rfl hxs
  | cons x xs ih =>
      by_cases hnil : xs = []
      · rw [hnil, List.singleton_append, List.intercalate_singleton,
          List.intercalate_cons_of_ne_nil hys]
      · rw [List.cons_append, List.intercalate_cons_of_ne_nil (by simp [hnil]), ih hnil,
          List.intercalate_cons_of_ne_nil hnil]
        simp only [List.append_assoc]

/-- A text that is put together from two is handled as the two are. -/
theorem substituteText_append (rules : List Rule) (a b : List Char) :
    substituteText rules (a ++ '\n' :: b) =
      ⟨(substituteText rules a).content ++ '\n' :: (substituteText rules b).content,
        (substituteText rules a).replacements + (substituteText rules b).replacements⟩ := by
  have hne : ∀ text : List Char,
      ((text.splitOn '\n').map (substituteLine rules)).map (·.content) ≠ [] := by
    intro text
    simp only [ne_eq, List.map_eq_nil_iff]
    exact List.splitOn_ne_nil '\n' text
  simp only [substituteText, List.splitOn_append_cons_self, List.map_append,
    ← List.sum_eq_foldr, List.sum_append]
  rw [intercalate_append_of_ne_nil _ _ _ (hne a) (hne b), List.append_assoc, List.singleton_append]

/-- A text of one line is handled as the line is. -/
theorem substituteText_of_line (rules : List Rule) (line : List Char) (h : '\n' ∉ line) :
    substituteText rules line = substituteLine rules line := by
  rw [substituteText, List.splitOn_eq_singleton h]
  simp only [List.map_cons, List.map_nil, List.intercalate_singleton, List.foldr_cons,
    List.foldr_nil, Nat.add_zero]

theorem substituteLine_of_isComment (rules : List Rule) (line : List Char)
    (h : isComment line = true) : substituteLine rules line = ⟨line, 0⟩ := by
  rw [substituteLine, if_pos h]

theorem replacements_le_foldl_step (rules : List Rule) (s : Substituted) :
    s.replacements ≤ (rules.foldl Substituted.step s).replacements := by
  refine List.foldlRecOn (motive := fun s' => s.replacements ≤ s'.replacements) rules
    Substituted.step (Nat.le_refl _) ?_
  intro s' hle r _
  rw [step_eq]
  exact Nat.le_add_right_of_le hle

/-- Rules that count nothing leave a line as it is. -/
theorem foldl_step_of_replacements_eq (rules : List Rule) : ∀ s : Substituted,
    (rules.foldl Substituted.step s).replacements = s.replacements →
      rules.foldl Substituted.step s = s := by
  induction rules with
  | nil => intro s _; rfl
  | cons r rules ih =>
      intro s h
      rw [List.foldl_cons] at h ⊢
      have hle := replacements_le_foldl_step rules (s.step r)
      -- The counts only grow, so the first rule has not counted anything either.
      have hcount : r.count s.content = 0 := by
        rw [h, step_eq] at hle
        change s.replacements + r.count s.content ≤ s.replacements at hle
        omega
      have hstep : s.step r = s := by
        simp only [Substituted.step, hcount, beq_self_eq_true, if_true]
      rw [hstep] at h ⊢
      exact ih s h

theorem substituteLine_of_replacements_eq_zero (rules : List Rule) (line : List Char)
    (h : (substituteLine rules line).replacements = 0) :
    substituteLine rules line = ⟨line, 0⟩ := by
  rw [substituteLine] at h ⊢
  split
  · rfl
  · next hcomment =>
      rw [if_neg hcomment] at h
      exact foldl_step_of_replacements_eq rules ⟨line, 0⟩ h

/-- A text in which nothing is counted is left as it is. -/
theorem substituteText_of_replacements_eq_zero (rules : List Rule) (text : List Char)
    (h : (substituteText rules text).replacements = 0) :
    (substituteText rules text).content = text := by
  rw [substituteText_eq_self rules text]
  intro line hline
  refine substituteLine_of_replacements_eq_zero rules line ?_
  simp only [substituteText, ← List.sum_eq_foldr, List.sum_eq_zero_iff_forall_eq_nat] at h
  exact h _ (List.mem_map_of_mem (List.mem_map_of_mem hline))

theorem mem_replaceSpansFrom (c : Char) (replacement : List Char) (spans : List Span) :
    ∀ (index : Nat) (text : List Char), c ∈ replaceSpansFrom replacement index spans text →
      c ∈ replacement ∨ c ∈ text := by
  induction spans with
  | nil => intro index text h; exact Or.inr h
  | cons span spans ih =>
      intro index text h
      rw [replaceSpansFrom, List.mem_append, List.mem_append] at h
      rcases h with (h | h) | h
      · exact Or.inr (List.mem_of_mem_take h)
      · exact Or.inl h
      · exact (ih _ _ h).imp_right List.mem_of_mem_drop

/-- What a rule writes comes from the text or from the replacement. -/
theorem mem_apply (r : Rule) (c : Char) (text : List Char) (h : c ∈ r.apply text) :
    c ∈ r.replacement.toList ∨ c ∈ text :=
  mem_replaceSpansFrom c _ _ 0 text h

/-- Replacements without line feeds leave a text with as many lines as it
    had. -/
theorem length_splitOn_substituteText (rules : List Rule)
    (h : ∀ r ∈ rules, '\n' ∉ r.replacement.toList) (text : List Char) :
    ((substituteText rules text).content.splitOn '\n').length = (text.splitOn '\n').length := by
  rw [splitOn_substituteText_of_keeps, List.length_map]
  intro line hline
  rw [substituteLine]
  split
  · exact hline
  · -- Every rule is given a line and leaves one.
    refine List.foldlRecOn (motive := fun s => '\n' ∉ s.content) rules Substituted.step
      (b := ⟨line, 0⟩) hline ?_
    intro s hs r hr
    rw [step_content]
    intro hmem
    exact (mem_apply r '\n' s.content hmem).elim (h r hr) hs

/-- Substitution works line by line, whatever the rules are. Two texts with a
    line feed between them give their two results with a line feed between
    them, and the counts add up; every text gives the results of its lines,
    where a comment gives itself and no replacement; a text without
    replacements is left as it is; and the number of lines stays the same
    unless a replacement holds a line feed. -/
theorem substituteText_line_by_line (rules : List Rule) :
    (∀ a b : List Char,
      (substituteText rules (a ++ '\n' :: b)).content =
        (substituteText rules a).content ++ '\n' :: (substituteText rules b).content ∧
      (substituteText rules (a ++ '\n' :: b)).replacements =
        (substituteText rules a).replacements + (substituteText rules b).replacements) ∧
    (∀ text : List Char, ∃ parts : List Substituted,
      List.Forall₂ (fun line part => part = substituteText rules line ∧
        ("//".toList <+: trim line → part = ⟨line, 0⟩)) (text.splitOn '\n') parts ∧
      (substituteText rules text).content = ['\n'].intercalate (parts.map (·.content)) ∧
      (substituteText rules text).replacements = (parts.map (·.replacements)).sum) ∧
    (∀ text : List Char, (substituteText rules text).replacements = 0 →
      (substituteText rules text).content = text) ∧
    ((∀ r ∈ rules, '\n' ∉ r.replacement.toList) → ∀ text : List Char,
      ((substituteText rules text).content.splitOn '\n').length =
        (text.splitOn '\n').length) := by
  refine ⟨?_, ?_, substituteText_of_replacements_eq_zero rules,
    length_splitOn_substituteText rules⟩
  · intro a b
    rw [substituteText_append]
    exact ⟨rfl, rfl⟩
  · intro text
    -- A line is a text too, of one line.
    refine ⟨(text.splitOn '\n').map (substituteLine rules), ?_, rfl, rfl⟩
    rw [List.forall₂_map_right_iff, List.forall₂_same]
    intro line hline
    refine ⟨(substituteText_of_line rules line (not_mem_of_mem_splitOn '\n' text line hline)).symm,
      fun hcomment => substituteLine_of_isComment rules line ?_⟩
    exact List.isPrefixOf_iff_prefix.mpr hcomment

/-- Fragments that take the blanks behind a name along, and would see the end of
    a line in any text. -/
def trailingGlobals : Globals :=
  { patternAfter := some "(?m)\\s*$" }

/-- A line of code above a comment that starts behind a no-break space. -/
theorem substituteText_line_by_line_comment :
    ∃ rules, compileRules openRenames openTemplates trailingGlobals = .ok rules ∧
      (∀ r ∈ rules, '\n' ∉ r.replacement.toList) ∧
      "//".toList <+: trim "\u00a0//a Legacy__c".toList ∧
      (substituteText rules "\u00a0//a Legacy__c".toList).replacements = 0 ∧
      (substituteText rules "\u00a0//a Legacy__c".toList).content =
        "\u00a0//a Legacy__c".toList ∧
      (substituteText rules "new Legacy__c \n\u00a0//a Legacy__c".toList).content =
        (substituteText rules "new Legacy__c ".toList).content ++
          '\n' :: (substituteText rules "\u00a0//a Legacy__c".toList).content ∧
      ((substituteText rules "new Legacy__c \n\u00a0//a Legacy__c".toList).content.splitOn
        '\n').length = 2 := by
  have hrun : (compileRules openRenames openTemplates trailingGlobals).toOption.map (fun rules =>
      rules.all fun r => '\n' ∉ r.replacement.toList) = some true := by
    decide +kernel
  cases hrules : compileRules openRenames openTemplates trailingGlobals with
  | error cause =>
      rw [hrules] at hrun
      cases hrun
  | ok rules =>
      rw [hrules] at hrun
      have hfeed : ∀ r ∈ rules, '\n' ∉ r.replacement.toList := by
        simpa [Except.toOption] using hrun
      have hcomment : "//".toList <+: trim "\u00a0//a Legacy__c".toList := by decide
      rcases substituteText_line_by_line rules with ⟨happend, hlines, hzero, hlength⟩
      have hcount : (substituteText rules "\u00a0//a Legacy__c".toList).replacements = 0 := by
        rcases hlines "\u00a0//a Legacy__c".toList with ⟨parts, hparts, -, hsum⟩
        rw [List.splitOn_eq_singleton (by decide)] at hparts
        rcases List.forall₂_cons_left_iff.mp hparts with ⟨part, rest, hpart, hrest, rfl⟩
        rw [List.forall₂_nil_left_iff.mp hrest, hpart.2 hcomment] at hsum
        exact hsum
      exact ⟨rules, rfl, hfeed, hcomment, hcount, hzero _ hcount,
        (happend "new Legacy__c ".toList "\u00a0//a Legacy__c".toList).1, hlength hfeed _⟩

end SchemaRename
