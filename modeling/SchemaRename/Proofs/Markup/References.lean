import SchemaRename.Markup.Entity
import SchemaRename.Markup.Event

/-!
# Escaped Text Reads Back

What a writer of documents may rely on when it escapes a text.

Three facts are needed, and they pull in different directions. Reading an
escaped text has to give the text back, whatever offset the reader has
reached. An escaped text must not hold any of the characters that end a text
or a value, or the reader would stop early. And trimming happens before
references are resolved: the reader drops blanks from the *escaped* text, so
escaping must neither make nor hide a blank.

All three come down to one character. A special character is written as a
reference, which starts with an ampersand and ends with a semicolon; every
other character, blanks included, is written as itself.

## Main definitions

* `special`: The characters that are written by name.
* `trimSpace`: A text without the blanks of markup around it.

## Theorems

* `escapeChar_of_notMem`: A character that is not special is written as
  itself.
* `unescape_escape`: An escaped text reads back as itself.
* `ne_of_mem_escape`: An escaped text holds no character that ends one.
* `trimSpaceEnd_escape`: Trimming an escaped text trims the text.
* `trimSpace_escape`: The same at both ends.
-/

namespace SchemaRename.Markup

open SchemaRename.Text

/-- The characters that are written by name. -/
def special : List Char :=
  ['<', '>', '&', '\'', '"']

/-- A text without the blanks of markup around it. -/
def trimSpace (s : List Char) : List Char :=
  trimSpaceEnd (s.dropWhile isSpace)

theorem mem_special_iff (c : Char) :
    c ∈ special ↔ c = '<' ∨ c = '>' ∨ c = '&' ∨ c = '\'' ∨ c = '"' := by
  simp only [special, List.mem_cons, List.not_mem_nil, or_false]

theorem escapeChar_of_notMem (c : Char) (h : c ∉ special) : escapeChar c = [c] := by
  rw [mem_special_iff] at h
  simp only [not_or] at h
  simp only [escapeChar, beq_iff_eq, if_neg h.1, if_neg h.2.1, if_neg h.2.2.1,
    if_neg h.2.2.2.1, if_neg h.2.2.2.2]

theorem escape_cons (c : Char) (s : List Char) : escape (c :: s) = escapeChar c ++ escape s := by
  simp only [escape, List.flatMap_cons]

theorem escape_eq_nil_iff (s : List Char) : escape s = [] ↔ s = [] := by
  constructor
  · intro h
    cases s with
    | nil => rfl
    | cons c s =>
        rw [escape_cons, List.append_eq_nil_iff] at h
        by_cases hc : c ∈ special
        · rw [mem_special_iff] at hc
          rcases hc with rfl | rfl | rfl | rfl | rfl <;> exact absurd h.1 (by decide)
        · rw [escapeChar_of_notMem c hc] at h
          exact absurd h.1 (List.cons_ne_nil c [])
  · intro h
    rw [h]
    rfl

/-- Reading one escaped character gives it back. How far the offset moves
    depends on how the character is written, and nothing that follows
    depends on the offset unless it is faulty. -/
theorem unescapeFrom_escapeChar (total offset : Nat) (c : Char) (rest : List Char) :
    ∃ offset', unescapeFrom total offset none (escapeChar c ++ rest) =
      (unescapeFrom total offset' none rest).map (c :: ·) := by
  by_cases h : c ∈ special
  · rw [mem_special_iff] at h
    rcases h with rfl | rfl | rfl | rfl | rfl <;> exact ⟨_, rfl⟩
  · -- Only an ampersand starts a reference, and it is special itself.
    have hamp : ¬ (c == '&') = true := by
      intro hc
      rw [beq_iff_eq] at hc
      exact h (by rw [hc]; decide)
    refine ⟨offset + c.utf8Size, ?_⟩
    rw [escapeChar_of_notMem c h, List.cons_append, List.nil_append]
    simp only [unescapeFrom, if_neg hamp]

theorem unescapeFrom_escape (total : Nat) (s : List Char) :
    ∀ offset, unescapeFrom total offset none (escape s) = .ok s := by
  induction s with
  | nil => intro offset; rfl
  | cons c s ih =>
      intro offset
      -- The offset is free in the hypothesis, so it may move as it likes.
      rcases unescapeFrom_escapeChar total offset c (escape s) with ⟨offset', h⟩
      rw [escape_cons, h, ih offset']
      rfl

/-- An escaped text reads back as itself. -/
theorem unescape_escape (s : List Char) : unescape (escape s) = .ok s :=
  unescapeFrom_escape (byteSize (escape s)) s 0

theorem ne_of_mem_escape (c : Char) (hc : c ∈ special) (hamp : c ≠ '&') (s : List Char) :
    ∀ d ∈ escape s, d ≠ c := by
  intro d hd hdc
  subst hdc
  rcases List.mem_flatMap.mp hd with ⟨x, _, hx⟩
  by_cases h : x ∈ special
  · -- A reference holds an ampersand, letters and a semicolon.
    rw [mem_special_iff] at h hc
    rcases h with rfl | rfl | rfl | rfl | rfl <;>
      rcases hc with rfl | rfl | rfl | rfl | rfl <;> revert hx hamp <;> decide
  · rw [escapeChar_of_notMem x h, List.mem_singleton] at hx
    exact h (by rw [← hx]; exact hc)

/-- Trimming goes through a translation that keeps blanks as they are and
    starts everything else with something that is no blank. -/
theorem dropWhile_isSpace_flatMap (g : Char → List Char)
    (hblank : ∀ c, isSpace c = true → g c = [c])
    (hother : ∀ c, isSpace c = false → ∃ d ds, g c = d :: ds ∧ isSpace d = false)
    (s : List Char) : (s.flatMap g).dropWhile isSpace = (s.dropWhile isSpace).flatMap g := by
  induction s with
  | nil => rfl
  | cons c s ih =>
      cases h : isSpace c with
      | true =>
          rw [List.flatMap_cons, hblank c h, List.cons_append, List.nil_append,
            List.dropWhile_cons_of_pos h, List.dropWhile_cons_of_pos h]
          exact ih
      | false =>
          rcases hother c h with ⟨d, ds, hg, hd⟩
          rw [List.dropWhile_cons_of_neg (by rw [h]; decide), List.flatMap_cons, hg,
            List.cons_append, List.dropWhile_cons_of_neg (by rw [hd]; decide)]

theorem escapeChar_of_isSpace (c : Char) (h : isSpace c = true) : escapeChar c = [c] := by
  refine escapeChar_of_notMem c (fun hc => ?_)
  rw [mem_special_iff] at hc
  rcases hc with rfl | rfl | rfl | rfl | rfl <;> revert h <;> decide

theorem escapeChar_ends (c : Char) (h : isSpace c = false) :
    (∃ d ds, escapeChar c = d :: ds ∧ isSpace d = false) ∧
      ∃ d ds, (escapeChar c).reverse = d :: ds ∧ isSpace d = false := by
  by_cases hc : c ∈ special
  · rw [mem_special_iff] at hc
    rcases hc with rfl | rfl | rfl | rfl | rfl <;>
      exact ⟨⟨_, _, rfl, by decide⟩, ⟨_, _, rfl, by decide⟩⟩
  · rw [escapeChar_of_notMem c hc]
    exact ⟨⟨c, [], rfl, h⟩, ⟨c, [], rfl, h⟩⟩

theorem dropWhile_isSpace_escape (s : List Char) :
    (escape s).dropWhile isSpace = escape (s.dropWhile isSpace) :=
  dropWhile_isSpace_flatMap escapeChar escapeChar_of_isSpace
    (fun c h => (escapeChar_ends c h).1) s

theorem trimSpaceEnd_escape (s : List Char) :
    trimSpaceEnd (escape s) = escape (trimSpaceEnd s) := by
  -- The end is trimmed as the start of the reversed text.
  have hrev : (escape s).reverse = s.reverse.flatMap (fun c => (escapeChar c).reverse) := by
    rw [escape, List.reverse_flatMap]
    rfl
  have hdrop := dropWhile_isSpace_flatMap (fun c => (escapeChar c).reverse)
    (fun c h => by rw [escapeChar_of_isSpace c h]; rfl)
    (fun c h => (escapeChar_ends c h).2) s.reverse
  rw [trimSpaceEnd, hrev, hdrop, List.reverse_flatMap, trimSpaceEnd, escape]
  refine congrArg (fun g => List.flatMap g _) (funext fun c => ?_)
  exact List.reverse_reverse (escapeChar c)

/-- Escaping and trimming can trade places. -/
theorem trimSpace_escape (s : List Char) : trimSpace (escape s) = escape (trimSpace s) := by
  rw [trimSpace, trimSpace, dropWhile_isSpace_escape, trimSpaceEnd_escape]

end SchemaRename.Markup
