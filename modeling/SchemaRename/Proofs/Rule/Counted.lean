import SchemaRename.Proofs.Pattern.Successive
import SchemaRename.Proofs.Substitution.Commuting

/-!
# Counted and Replaced Matches

A rule replaces exactly the matches that it counts.

Spans that lie from left to right, without a character in common, cut a text
into parts: some characters that are kept, and a match behind them. Replacing
puts the replacement in the place of each match and keeps everything else. So
the parts say at once what was there and what is there now, and there are as
many of them as spans were counted.

Nothing is asked of the pattern. A fragment of the map can make it match the
empty text, at the ends of a line or everywhere in it, and the spans still lie as
they should.

## Main definitions

* `Part`: A piece of a text that is kept, with the match behind it.
* `Part.spansFrom`: Where the matches of some parts are.

## Theorems

* `exists_cut`, `exists_parts`: Spans cut a text into parts.
* `Rule.isMatch_iff_count_pos`: A rule matches if it counts something.
* `Rule.apply_replaces_counted`: What a rule counts is what it replaces.
-/

namespace SchemaRename.Pattern

/-- Some characters that are kept, and a match behind them. -/
structure Part where
  kept : List Char
  matched : List Char
deriving Repr, DecidableEq

/-- Where the matches of some parts are, if the parts start at an index. -/
def Part.spansFrom : Nat → List Part → List Span
  | _, [] => []
  | index, p :: parts =>
    let start := index + p.kept.length
    let stop := start + p.matched.length
    ⟨start, stop⟩ :: Part.spansFrom stop parts

/-- A span cuts a text into what is in front of it, the span and what is behind
    it. -/
theorem exists_cut (s : Span) (index : Nat) (text : List Char)
    (h : s.Free none index (index + text.length)) :
    ∃ (p : Part) (rest : List Char), text = p.kept ++ p.matched ++ rest ∧
      s.start = index + p.kept.length ∧ s.stop = s.start + p.matched.length := by
  have hfirst := h.first_le
  have hstart := h.start_le
  have hstop := h.stop_le
  refine ⟨⟨text.take (s.start - index), (text.drop (s.start - index)).take (s.stop - s.start)⟩,
    text.drop (s.stop - index), ?_, ?_, ?_⟩
  · rw [List.append_assoc, show s.stop - index = (s.start - index) + (s.stop - s.start) by omega,
      ← List.drop_drop, List.take_append_drop, List.take_append_drop]
  · rw [List.length_take]
    omega
  · rw [List.length_take, List.length_drop]
    omega

/-- Spans from left to right cut a text into parts, and replacing the spans is
    replacing what the parts have matched. -/
theorem exists_parts (replacement : List Char) (spans : List Span) :
    ∀ (index : Nat) (text : List Char), spans.Pairwise Span.Before →
      (∀ s ∈ spans, s.Free none index (index + text.length)) →
      ∃ (parts : List Part) (rest : List Char), Part.spansFrom index parts = spans ∧
        text = parts.flatMap (fun p => p.kept ++ p.matched) ++ rest ∧
        replaceSpansFrom replacement index spans text =
          parts.flatMap (fun p => p.kept ++ replacement) ++ rest := by
  induction spans with
  | nil => intro index text _ _; exact ⟨[], text, rfl, rfl, rfl⟩
  | cons s spans ih =>
      intro index text hbefore hfree
      rw [List.pairwise_cons] at hbefore
      rcases exists_cut s index text (hfree s List.mem_cons_self) with
        ⟨p, text, rfl, hstart, hstop⟩
      -- The other spans lie in what is behind this one.
      have hrest : ∀ b ∈ spans, b.Free none s.stop (s.stop + text.length) := by
        intro b hb
        have hb' := hfree b (List.mem_cons_of_mem s hb)
        refine { hb' with first_le := (hbefore.1 b hb).disjoint, stop_le := ?_ }
        calc b.stop ≤ index + (p.kept ++ p.matched ++ text).length := hb'.stop_le
          _ = s.stop + text.length := by
            rw [hstop, hstart, List.length_append, List.length_append]
            omega
      rcases ih s.stop text hbefore.2 hrest with ⟨parts, rest, hspans, htext, hreplaced⟩
      refine ⟨p :: parts, rest, ?_, ?_, ?_⟩
      · simp only [Part.spansFrom, ← hstart, ← hstop, hspans]
      · rw [List.flatMap_cons, List.append_assoc (p.kept ++ p.matched), ← htext]
      · have hkept : (p.kept ++ p.matched ++ text).take (s.start - index) = p.kept := by
          rw [hstart, Nat.add_sub_cancel_left, List.append_assoc, List.take_left]
        have hbehind : (p.kept ++ p.matched ++ text).drop (s.stop - index) = text := by
          rw [hstop, hstart, Nat.add_assoc, Nat.add_sub_cancel_left, ← List.length_append,
            List.drop_left]
        rw [replaceSpansFrom, hkept, hbehind, hreplaced, List.flatMap_cons]
        simp only [List.append_assoc]

theorem length_spansFrom_parts (parts : List Part) : ∀ index : Nat,
    (Part.spansFrom index parts).length = parts.length := by
  induction parts with
  | nil => intro index; rfl
  | cons p parts ih => intro index; rw [Part.spansFrom, List.length_cons, ih, List.length_cons]

end SchemaRename.Pattern

namespace SchemaRename

open SchemaRename.Pattern

/-- A rule matches a text exactly if it counts a match in it. -/
theorem Rule.isMatch_iff_count_pos (r : Rule) (text : List Char) :
    r.isMatch text = true ↔ 0 < r.count text := by
  rw [isMatch, count, occursIn_iff_spans_ne_nil, List.length_pos_iff]

/-- What a rule counts is what it replaces, whatever its pattern is. Asking for
    one match after the other comes to an end, and yields the same spans each
    time. They lie in the text from left to right, have no character in common,
    and none of them is empty where the one before has ended. A rule matches
    exactly if there is one. It counts them all, and its result is the text with
    the replacement, as it stands, in the place of each of them and with all that
    is between them. So a step of a substitution adds to the count the number of
    replacements that it makes. -/
theorem Rule.apply_replaces_counted (r : Rule) (text : List Char) :
    ∃ spans : List Span,
      (∀ found, (Search.start text).Yields r.matcher found ↔ found = spans) ∧
      spans.length ≤ text.length + 1 ∧
      (∀ s ∈ spans, s.start ≤ s.stop ∧ s.stop ≤ text.length) ∧
      spans.Pairwise Span.Before ∧
      r.count text = spans.length ∧
      (r.isMatch text = true ↔ 0 < r.count text) ∧
      (∃ (parts : List Part) (rest : List Char),
        parts.length = r.count text ∧ Part.spansFrom 0 parts = spans ∧
        text = parts.flatMap (fun p => p.kept ++ p.matched) ++ rest ∧
        r.apply text = parts.flatMap (fun p => p.kept ++ r.replacement.toList) ++ rest) ∧
      ∀ done : Nat, Substituted.step ⟨text, done⟩ r = ⟨r.apply text, done + spans.length⟩ := by
  have hfree : ∀ s ∈ r.matcher.spans text, s.Free none 0 (0 + text.length) :=
    free_of_mem_spansFrom r.matcher text none 0 none
  have hbefore : (r.matcher.spans text).Pairwise Span.Before :=
    pairwise_spansFrom r.matcher text none 0 none
  refine ⟨r.matcher.spans text, yields_iff r.matcher _ (ready_start text),
    length_spansFrom_le r.matcher text none 0 none, fun s hs => ?_, hbefore, rfl,
    r.isMatch_iff_count_pos text, ?_, fun done => step_eq r ⟨text, done⟩⟩
  · exact ⟨(hfree s hs).start_le, Nat.zero_add text.length ▸ (hfree s hs).stop_le⟩
  · rcases exists_parts r.replacement.toList _ 0 text hbefore hfree with
      ⟨parts, rest, hspans, htext, happly⟩
    have hlength : parts.length = r.count text := by
      rw [← length_spansFrom_parts parts 0, hspans, Rule.count]
    exact ⟨parts, rest, hlength, hspans, htext, happly⟩

/-- A fragment that matches the empty text, and prefers that to the identifier. -/
def blankGlobals : Globals :=
  { patternBefore := some "x*|" }

/-- Three empty matches and one that is not, and a replacement that would stand
    for the match if it were not taken as it is. Behind the letters that match
    there is no empty match. -/
theorem Rule.apply_replaces_counted_blank :
    ∃ r spans, buildRule blankGlobals ⟨.object, "Legacy__c", "$0", true, {}⟩
        { name := "word", before := "", after := "" } = .ok r ∧
      (Search.start "axxéb".toList).Yields r.matcher spans ∧ spans.Pairwise Span.Before ∧
      spans.length = 4 ∧ r.isMatch "axxéb".toList = true ∧
      r.apply "axxéb".toList = "$0a$0é$0b$0".toList := by
  have hrun : (buildRule blankGlobals ⟨.object, "Legacy__c", "$0", true, {}⟩
      { name := "word", before := "", after := "" }).toOption.map (fun r =>
        (r.count "axxéb".toList, r.apply "axxéb".toList)) =
      some (4, "$0a$0é$0b$0".toList) := by
    decide +kernel
  cases hrule : buildRule blankGlobals ⟨.object, "Legacy__c", "$0", true, {}⟩
      { name := "word", before := "", after := "" } with
  | error cause =>
      rw [hrule] at hrun
      cases hrun
  | ok r =>
      rw [hrule] at hrun
      simp only [Except.toOption, Option.map_some, Option.some.injEq, Prod.mk.injEq] at hrun
      rcases r.apply_replaces_counted "axxéb".toList with
        ⟨spans, hyields, -, -, hbefore, hcount, hmatch, -, -⟩
      exact ⟨r, spans, rfl, (hyields spans).mpr rfl, hbefore, hcount ▸ hrun.1,
        hmatch.mpr (by rw [hrun.1]; decide), hrun.2⟩

end SchemaRename
