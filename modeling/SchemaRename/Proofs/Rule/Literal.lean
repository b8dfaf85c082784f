import SchemaRename.Proofs.Pattern.Escaped
import SchemaRename.Rule

/-!
# Rules as Literal Search

A rule without fragments around its pattern looks for a fixed text.

The pattern of a rule is made from three texts, each escaped, and escaping
goes through concatenation: the pattern is the escaped form of one text, with
a dollar sign behind it when the right boundary is the end of the line. What
such a pattern finds is known, so a rule can be read without patterns: it
looks for its needle, and puts its replacement there as it stands.

## Main definitions

* `Template.needle`: The text a rule looks for.

## Theorems

* `pattern_eq_escape`: A template's pattern is an escaped text.
* `parse_pattern`: A template's pattern reads, and finds the needle.
* `span_of_mem_spansFrom_atEnd`: A needle for the end is found only there.
* `exists_buildRule`: A rule is always built, and finds the needle.
* `buildRule_eq_literal`: A rule is a literal search and replace.
-/

namespace SchemaRename

open SchemaRename.Pattern

/-- The text that a template looks for. The end of the line is not part of
    it. -/
def Template.needle (t : Template) (caseSensitive : Bool) (oldId : String) : Needle where
  chars := t.before.toList ++ oldId.toList ++ if t.isEndOfLine then [] else t.after.toList
  anyCase := !caseSensitive
  atEnd := t.isEndOfLine

theorem Template.needle_chars_ne_nil (t : Template) (caseSensitive : Bool) (oldId : String)
    (h : oldId.toList ≠ []) : (t.needle caseSensitive oldId).chars ≠ [] := by
  intro hnil
  rw [Template.needle, List.append_eq_nil_iff, List.append_eq_nil_iff] at hnil
  exact h hnil.1.2

/-- Escaping the boundaries and the identifier one by one is escaping them
    together. -/
theorem Template.pattern_eq_escape (t : Template) (caseSensitive : Bool) (oldId : String) :
    t.pattern oldId = escape (t.needle caseSensitive oldId).chars ++
      if t.isEndOfLine then ['$'] else [] := by
  rw [Template.pattern, Template.needle, escape_append, escape_append]
  cases t.isEndOfLine with
  | true => simp only [if_true, escape, List.flatMap_nil, List.append_nil]
  | false => simp only [Bool.false_eq_true, if_false, List.append_nil]

/-- A template's pattern always reads, and finds its needle and nothing
    else. -/
theorem Template.parse_pattern (t : Template) (caseSensitive : Bool) (oldId : String) :
    ∃ e, parse (!caseSensitive) (t.pattern oldId) = .ok e ∧
      Finds e (t.needle caseSensitive oldId) := by
  rw [Template.pattern_eq_escape t caseSensitive oldId]
  cases hend : t.isEndOfLine with
  | true =>
      rcases parse_escape_end (!caseSensitive) (t.needle caseSensitive oldId).chars
        with ⟨e, he, hfinds⟩
      refine ⟨e, he, ?_⟩
      rw [Template.needle, hend]
      rw [Template.needle, hend] at hfinds
      exact hfinds
  | false =>
      rcases parse_escape (!caseSensitive) (t.needle caseSensitive oldId).chars
        with ⟨e, he, hfinds⟩
      refine ⟨e, by rw [if_neg Bool.false_ne_true, List.append_nil]; exact he, ?_⟩
      rw [Template.needle, hend]
      rw [Template.needle, hend] at hfinds
      exact hfinds

/-- Without fragments a rule is always built, and its matcher finds the
    needle. -/
theorem exists_buildRule (g : Globals) (source : RuleSource) (t : Template)
    (hbefore : g.patternBefore = none) (hafter : g.patternAfter = none) :
    ∃ r, buildRule g source t = .ok r ∧ r.oldId = source.oldId ∧ r.newId = source.newId ∧
      r.caseSensitive = source.caseSensitive ∧
      r.replacement = t.replacement source.newId ∧
      Finds r.matcher (t.needle source.caseSensitive source.oldId) := by
  rcases t.parse_pattern source.caseSensitive source.oldId with ⟨e, he, hfinds⟩
  have haround : g.patternAround (t.pattern source.oldId) = t.pattern source.oldId := by
    rw [Globals.patternAround, hbefore, hafter]
    exact List.append_nil _
  refine ⟨_, by unfold buildRule; simp only [haround, he]; rfl, rfl, rfl, rfl, rfl, hfinds⟩

/-- A needle for the end of a text is found at most once, and only there. -/
theorem span_of_mem_spansFrom_atEnd (n : Needle) (h : n.atEnd = true) (text : List Char) :
    ∀ (skip index : Nat), ∀ s ∈ n.spansFrom skip index text,
      s.stop = index + text.length ∧ s.start + n.chars.length = s.stop := by
  induction text with
  | nil => intro skip index s hs; exact absurd hs List.not_mem_nil
  | cons c text ih =>
      intro skip index s hs
      have hlength : index + (c :: text).length = index + 1 + text.length := by
        rw [List.length_cons]
        omega
      rw [hlength]
      cases skip with
      | succ skip => exact ih skip (index + 1) s hs
      | zero =>
          rw [Needle.spansFrom] at hs
          split at hs
          · rename_i hocc
            rcases List.mem_cons.mp hs with rfl | hs
            -- A match here reaches to the end of the text.
            · rw [Needle.occursAt, h, Bool.not_true, Bool.false_or, Bool.and_eq_true,
                beq_iff_eq] at hocc
              exact ⟨by rw [← hlength, hocc.2], rfl⟩
            · exact ih _ (index + 1) s hs
          · exact ih 0 (index + 1) s hs

/-- A rule of an identifier is a literal search and replace: its pattern
    reads whatever characters the identifier and the boundaries are made of,
    its matches are the places where the needle is found from left to right,
    and each of them gets the replacement as it stands. At the end of the
    line the needle can be found only once, as the last thing on it. -/
theorem buildRule_eq_literal (g : Globals) (source : RuleSource) (t : Template)
    (hbefore : g.patternBefore = none) (hafter : g.patternAfter = none)
    (hold : source.oldId.toList ≠ []) :
    ∃ r, buildRule g source t = .ok r ∧
      r.replacement.toList = (t.replacementPrefix.getD "").toList ++ t.before.toList ++
        source.newId.toList ++ (if t.after = "$" then [] else t.after.toList) ++
        (t.replacementSuffix.getD "").toList ∧
      ∀ text : List Char,
        r.matcher.spans text = (t.needle source.caseSensitive source.oldId).spans text ∧
        r.count text = ((t.needle source.caseSensitive source.oldId).spans text).length ∧
        r.apply text =
          (t.needle source.caseSensitive source.oldId).replace r.replacement.toList text ∧
        r.isMatch text = (t.needle source.caseSensitive source.oldId).occursIn text ∧
        (t.after = "$" → ∀ s ∈ r.matcher.spans text, s.stop = text.length ∧
          s.start + (t.before.toList ++ source.oldId.toList).length = s.stop) := by
  have hne := t.needle_chars_ne_nil source.caseSensitive source.oldId hold
  rcases exists_buildRule g source t hbefore hafter with ⟨r, hr, _, _, _, hrepl, hfinds⟩
  have hspans := spans_of_finds r.matcher _ hne hfinds
  have hend : t.isEndOfLine = decide (t.after = "$") := rfl
  refine ⟨r, hr, ?_, ?_⟩
  · simp only [hrepl, Template.replacement, String.toList_append, hend, decide_eq_true_eq]
    split
    · rfl
    · rfl
  · intro text
    refine ⟨hspans text, ?_, ?_, occursIn_of_finds r.matcher _ hfinds text, ?_⟩
    · rw [Rule.count, hspans text]
    · rw [Rule.apply, hspans text, Needle.replaceSpans_spans _ _ _ hne]
    · intro hdollar s hs
      -- Now the needle is the part of the pattern in front of the dollar sign.
      have hatEnd : t.isEndOfLine = true := by
        rw [hend, hdollar]
        rfl
      rw [hspans text] at hs
      have := span_of_mem_spansFrom_atEnd _ hatEnd text 0 0 s hs
      rw [Nat.zero_add, Template.needle, hatEnd, if_pos rfl, List.append_nil] at this
      exact this

/-- Characters that mean something in a pattern mean themselves in an
    identifier and in its new name. -/
theorem buildRule_eq_literal_metacharacters :
    ∃ r, buildRule {} ⟨.field, "a.b$", "$1", false, {}⟩
        { name := "call", before := "(", after := ")" } = .ok r ∧
      r.count "x(A.B$)(axb$)y".toList = 1 ∧
      r.apply "x(A.B$)(axb$)y".toList = "x($1)(axb$)y".toList := by
  rcases buildRule_eq_literal {} ⟨.field, "a.b$", "$1", false, {}⟩
    { name := "call", before := "(", after := ")" } rfl rfl (by decide) with ⟨r, hr, hrepl, hall⟩
  rcases hall "x(A.B$)(axb$)y".toList with ⟨_, hcount, happly, _⟩
  refine ⟨r, hr, ?_, ?_⟩
  · rw [hcount]
    decide
  · rw [happly, hrepl]
    decide

end SchemaRename
