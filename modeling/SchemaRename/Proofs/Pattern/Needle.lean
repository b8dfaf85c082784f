import Mathlib.Data.List.Forall2
import SchemaRename.Pattern.Spans
import SchemaRename.Text.CaseFold

/-!
# Literal Search

Looking for a fixed text, without patterns.

A needle is a text to look for, together with how its characters are compared
and whether it may stand anywhere or only at the end. The search is the
obvious one: walk over the text, and wherever the needle starts, note the
place and go on behind it.

The walk is recursive on the text, so a needle that was found is passed over
by counting off its characters. `spansFrom` notes the places and
`replaceFrom` puts something else there; they are two walks, and
`replaceSpans_spans` says that they find the same places.

## Main definitions

* `startsWithBy`: Whether a text starts with another one, under a comparison
  of characters.
* `agrees`: The comparison of characters.
* `Spells`: The comparison of texts.
* `Needle`: A text to look for.
* `Needle.occursAt`: Whether a needle stands at the start of a text.
* `Needle.spans`: The places where a needle is found.
* `Needle.replace`: A text with every found needle replaced.
* `Needle.occursIn`: Whether a needle stands anywhere in a text.

## Theorems

* `startsWithBy_iff`: Starting with a text, as a split of the text.
* `occursAt_iff`: A needle at the start of a text, as a split of the text.
* `replaceFrom_skip`: Passing over characters is dropping them.
* `replace_of_occursAt`, `replace_of_not_occursAt`: The search, one place on.
* `search_invariant`: What every step of the search keeps, the search keeps.
* `rel_replace`: What every replacement relates, the search relates.
* `exists_of_occursIn`, `occursIn_of_occursAt`, `spansFrom_eq_nil`: A needle
  that stands somewhere, and one that stands nowhere.
* `start_le_of_mem_spansFrom`: Places are found from left to right.
* `replaceSpans_spans`: Replacing what was found is replacing in one walk.
-/

namespace SchemaRename.Pattern

open SchemaRename.Text

/-- Whether a text starts with another one, character by character. -/
def startsWithBy (same : Char → Char → Bool) : List Char → List Char → Bool
  | [], _ => true
  | _ :: _, [] => false
  | x :: start, c :: text => same x c && startsWithBy same start text

/-- Whether two characters agree, up to letter case or exactly. -/
def agrees (anyCase : Bool) (x c : Char) : Bool :=
  if anyCase then sameFolded x c else x == c

/-- A text that spells a word, character by character. -/
def Spells (anyCase : Bool) (word text : List Char) : Prop :=
  List.Forall₂ (fun x c => agrees anyCase x c = true) word text

/-- A text to look for. -/
structure Needle where
  chars : List Char
  /-- Whether letters agree up to case. -/
  anyCase : Bool
  /-- Whether the needle may stand only at the end of a text. -/
  atEnd : Bool
deriving Repr, DecidableEq

namespace Needle

/-- Whether the needle stands at the start of a text. -/
def occursAt (n : Needle) (text : List Char) : Bool :=
  startsWithBy (agrees n.anyCase) n.chars text && (!n.atEnd || text.length == n.chars.length)

/-- The places where the needle is found in a text that starts at an index,
    once `skip` characters have been passed over. -/
def spansFrom (n : Needle) : (skip index : Nat) → List Char → List Span
  | _, _, [] => []
  | skip + 1, index, _ :: text => n.spansFrom skip (index + 1) text
  | 0, index, c :: text =>
    if n.occursAt (c :: text) then
      ⟨index, index + n.chars.length⟩ :: n.spansFrom (n.chars.length - 1) (index + 1) text
    else n.spansFrom 0 (index + 1) text

def spans (n : Needle) (text : List Char) : List Span :=
  n.spansFrom 0 0 text

/-- A text with every found needle replaced, once `skip` characters have been
    passed over. -/
def replaceFrom (n : Needle) (replacement : List Char) : (skip : Nat) → List Char → List Char
  | _, [] => []
  | skip + 1, _ :: text => n.replaceFrom replacement skip text
  | 0, c :: text =>
    if n.occursAt (c :: text) then
      replacement ++ n.replaceFrom replacement (n.chars.length - 1) text
    else c :: n.replaceFrom replacement 0 text

/-- A text with every found needle replaced and everything else kept. -/
def replace (n : Needle) (replacement text : List Char) : List Char :=
  n.replaceFrom replacement 0 text

/-- Whether the needle stands anywhere in a text. -/
def occursIn (n : Needle) : List Char → Bool
  | [] => n.occursAt []
  | c :: text => n.occursAt (c :: text) || n.occursIn text

end Needle

theorem startsWithBy_iff (same : Char → Char → Bool) (start : List Char) :
    ∀ (text : List Char), startsWithBy same start text = true ↔
      ∃ m rest, text = m ++ rest ∧ List.Forall₂ (fun x c => same x c = true) start m := by
  induction start with
  | nil =>
      intro text
      constructor
      · intro _
        exact ⟨[], text, rfl, List.Forall₂.nil⟩
      · intro _
        rw [startsWithBy]
  | cons x start ih =>
      intro text
      cases text with
      | nil =>
          constructor
          · intro h
            exact absurd h (by rw [startsWithBy]; decide)
          · rintro ⟨m, rest, htext, hm⟩
            cases hm with
            | cons _ _ => exact absurd htext (by simp only [List.cons_append, reduceCtorEq,
                not_false_eq_true])
      | cons c text =>
          rw [startsWithBy, Bool.and_eq_true, ih text]
          constructor
          · rintro ⟨hc, m, rest, rfl, hm⟩
            exact ⟨c :: m, rest, rfl, List.Forall₂.cons hc hm⟩
          · rintro ⟨m, rest, htext, hm⟩
            cases hm with
            | cons hc hm =>
                rw [List.cons_append, List.cons.injEq] at htext
                rcases htext with ⟨rfl, rfl⟩
                exact ⟨hc, _, rest, rfl, hm⟩

theorem sameFolded_of_agrees (anyCase : Bool) (x c : Char) (h : agrees anyCase x c = true) :
    sameFolded x c = true := by
  cases anyCase with
  | true => exact h
  | false =>
      have heq : x = c := beq_iff_eq.mp h
      rw [heq]
      exact sameFolded_refl c

theorem agrees_self (anyCase : Bool) (x : Char) : agrees anyCase x x = true := by
  cases anyCase with
  | true => exact sameFolded_refl x
  | false => exact beq_self_eq_true x

theorem spells_self (anyCase : Bool) (word : List Char) : Spells anyCase word word :=
  List.forall₂_same.mpr (fun x _ => agrees_self anyCase x)

theorem Spells.folded {anyCase : Bool} {word text : List Char} (h : Spells anyCase word text) :
    Spells true word text :=
  List.Forall₂.imp (fun x c hxc => sameFolded_of_agrees anyCase x c hxc) h

theorem spells_append_iff (anyCase : Bool) (x y : List Char) : ∀ (text : List Char),
    Spells anyCase (x ++ y) text ↔
      ∃ s t, text = s ++ t ∧ Spells anyCase x s ∧ Spells anyCase y t := by
  induction x with
  | nil =>
      intro text
      constructor
      · intro h
        exact ⟨[], text, rfl, List.Forall₂.nil, h⟩
      · rintro ⟨s, t, rfl, hs, ht⟩
        rw [Spells, List.forall₂_nil_left_iff] at hs
        rw [hs]
        exact ht
  | cons c x ih =>
      intro text
      constructor
      · intro h
        rw [List.cons_append, Spells, List.forall₂_cons_left_iff] at h
        rcases h with ⟨d, rest, hd, hrest, rfl⟩
        rcases (ih rest).mp hrest with ⟨s, t, rfl, hs, ht⟩
        exact ⟨d :: s, t, rfl, List.Forall₂.cons hd hs, ht⟩
      · rintro ⟨s, t, rfl, hs, ht⟩
        rw [Spells, List.forall₂_cons_left_iff] at hs
        rcases hs with ⟨d, rest, hd, hrest, rfl⟩
        exact List.Forall₂.cons hd ((ih (rest ++ t)).mpr ⟨rest, t, rfl, hrest, ht⟩)

namespace Needle

/-- A needle at the start of a text, as a split of the text. -/
theorem occursAt_iff (n : Needle) (text : List Char) : n.occursAt text = true ↔
    ∃ m rest, text = m ++ rest ∧ Spells n.anyCase n.chars m ∧
      (n.atEnd = true → rest = []) := by
  rw [occursAt, Bool.and_eq_true, startsWithBy_iff]
  constructor
  · rintro ⟨⟨m, rest, rfl, hm⟩, hend⟩
    refine ⟨m, rest, rfl, hm, fun hn => ?_⟩
    rw [hn, Bool.not_true, Bool.false_or, beq_iff_eq, List.length_append, hm.length_eq] at hend
    exact List.eq_nil_of_length_eq_zero (by omega)
  · rintro ⟨m, rest, rfl, hm, hend⟩
    refine ⟨⟨m, rest, rfl, hm⟩, ?_⟩
    cases hn : n.atEnd with
    | false => rfl
    | true => rw [hend hn, List.append_nil, hm.length_eq, beq_self_eq_true, Bool.or_true]

theorem occursAt_nil (n : Needle) (hne : n.chars ≠ []) : n.occursAt [] = false := by
  rcases List.exists_cons_of_ne_nil hne with ⟨x, xs, hx⟩
  rw [occursAt, hx, startsWithBy, Bool.false_and]

theorem replaceFrom_skip (n : Needle) (replacement : List Char) :
    ∀ (skip : Nat) (text : List Char),
      n.replaceFrom replacement skip text = n.replace replacement (text.drop skip) := by
  intro skip
  induction skip with
  | zero => intro text; rfl
  | succ skip ih =>
      intro text
      cases text with
      | nil => rfl
      | cons c text => rw [replaceFrom, List.drop_succ_cons, ih text]

theorem replace_nil (n : Needle) (replacement : List Char) : n.replace replacement [] = [] := rfl

/-- Where the needle starts, it is replaced and the search goes on behind
    it. -/
theorem replace_of_occursAt (n : Needle) (replacement text : List Char) (hne : n.chars ≠ [])
    (h : n.occursAt text = true) :
    n.replace replacement text =
      replacement ++ n.replace replacement (text.drop n.chars.length) := by
  rcases List.exists_cons_of_ne_nil hne with ⟨x, xs, hx⟩
  cases text with
  | nil =>
      rw [occursAt_nil n hne] at h
      exact absurd h (by decide)
  | cons c text =>
      have hlen : (c :: text).drop n.chars.length = text.drop (n.chars.length - 1) := by
        rw [hx, List.length_cons, List.drop_succ_cons, Nat.add_sub_cancel]
      rw [replace, replaceFrom, if_pos h, replaceFrom_skip, hlen]

theorem replace_of_not_occursAt (n : Needle) (replacement : List Char) (c : Char)
    (text : List Char) (h : ¬ n.occursAt (c :: text) = true) :
    n.replace replacement (c :: text) = c :: n.replace replacement text := by
  rw [replace, replaceFrom, if_neg h]
  rfl

theorem length_spansFrom (n : Needle) (text : List Char) : ∀ (skip index : Nat),
    (n.spansFrom skip index text).length = (n.spans (text.drop skip)).length := by
  -- The index is only noted, so the walk may start at any number.
  have hindex : ∀ (text : List Char) (skip index index' : Nat),
      (n.spansFrom skip index text).length = (n.spansFrom skip index' text).length := by
    intro text
    induction text with
    | nil => intro skip index index'; rw [spansFrom, spansFrom]
    | cons c text ih =>
        intro skip index index'
        cases skip with
        | succ skip => exact ih skip (index + 1) (index' + 1)
        | zero =>
            rw [spansFrom, spansFrom]
            split
            · rw [List.length_cons, List.length_cons, ih _ (index + 1) (index' + 1)]
            · exact ih 0 (index + 1) (index' + 1)
  induction text with
  | nil => intro skip index; rw [List.drop_nil, spans, spansFrom, spansFrom]
  | cons c text ih =>
      intro skip index
      cases skip with
      | zero => exact hindex (c :: text) 0 index 0
      | succ skip => exact ih skip (index + 1)

/-- What holds of a text before the search, and is kept by every step of it,
    holds of the result. The text is cut in two where the search stands: what
    it has written, and what it has not yet seen. What it has found is
    counted. -/
theorem search_invariant (n : Needle) (replacement : List Char) (hne : n.chars ≠ [])
    (inv : Nat → List Char → List Char → Prop)
    (hkeep : ∀ found done c todo, n.occursAt (c :: todo) = false → inv found done (c :: todo) →
      inv found (done ++ [c]) todo)
    (hhit : ∀ found done m todo, Spells n.anyCase n.chars m → (n.atEnd = true → todo = []) →
      inv found done (m ++ todo) → inv (found + 1) (done ++ replacement) todo)
    (todo : List Char) : ∀ found done, inv found done todo →
      inv (found + (n.spans todo).length) (done ++ n.replace replacement todo) [] := by
  induction hlen : todo.length using Nat.strongRecOn generalizing todo with
  | ind k ih =>
      intro found done hinv
      cases hocc : n.occursAt todo with
      | true =>
          rcases (occursAt_iff n todo).mp hocc with ⟨m, rest, rfl, hm, hend⟩
          -- The search goes on behind the needle, which is not empty.
          have hmlen : m.length = n.chars.length := (List.Forall₂.length_eq hm).symm
          have hpos : 0 < n.chars.length := List.length_pos_of_ne_nil hne
          have hspans : (n.spans (m ++ rest)).length = 1 + (n.spans rest).length := by
            cases m with
            | nil => exact absurd hmlen (by rw [List.length_nil]; omega)
            | cons c m =>
                have hdrop : (m ++ rest).drop (n.chars.length - 1) = rest := by
                  rw [← hmlen, List.length_cons, Nat.add_sub_cancel, List.drop_left]
                rw [List.cons_append] at hocc ⊢
                rw [spans, spansFrom, if_pos hocc, List.length_cons, length_spansFrom, hdrop]
                omega
          rw [List.length_append] at hlen
          rw [replace_of_occursAt n replacement _ hne hocc, ← hmlen, List.drop_left,
            ← List.append_assoc, hspans, ← Nat.add_assoc]
          exact ih rest.length (by omega) rest rfl _ _ (hhit found done m rest hm hend hinv)
      | false =>
          cases todo with
          | nil =>
              rw [replace_nil, List.append_nil]
              exact hinv
          | cons c todo =>
              have hspans : (n.spans (c :: todo)).length = (n.spans todo).length := by
                rw [spans, spansFrom, if_neg (by rw [hocc]; exact Bool.false_ne_true),
                  length_spansFrom]
                rfl
              rw [List.length_cons] at hlen
              rw [replace_of_not_occursAt n replacement c todo
                (by rw [hocc]; exact Bool.false_ne_true), hspans,
                show done ++ c :: n.replace replacement todo =
                  done ++ [c] ++ n.replace replacement todo by
                    rw [List.append_assoc]; rfl]
              exact ih todo.length (by omega) todo rfl _ _ (hkeep found done c todo hocc hinv)

/-- What every step of the search keeps, without counting. -/
theorem replace_invariant (n : Needle) (replacement : List Char) (hne : n.chars ≠ [])
    (inv : List Char → List Char → Prop)
    (hkeep : ∀ done c todo, n.occursAt (c :: todo) = false → inv done (c :: todo) →
      inv (done ++ [c]) todo)
    (hhit : ∀ done m todo, Spells n.anyCase n.chars m → (n.atEnd = true → todo = []) →
      inv done (m ++ todo) → inv (done ++ replacement) todo) (todo : List Char) :
    ∀ done, inv done todo → inv (done ++ n.replace replacement todo) [] :=
  search_invariant n replacement hne (fun _ => inv) (fun _ => hkeep) (fun _ => hhit) todo 0

/-- What relates a text before one replacement to the text after it relates a
    text before all of them to the result. -/
theorem rel_replace (n : Needle) (replacement : List Char) (hne : n.chars ≠ [])
    (rel : List Char → List Char → Prop) (hrefl : ∀ text, rel text text)
    (htrans : ∀ text text' text'', rel text text' → rel text' text'' → rel text text'')
    (hhit : ∀ u m v, Spells n.anyCase n.chars m → (n.atEnd = true → v = []) →
      rel (u ++ (m ++ v)) (u ++ (replacement ++ v))) (text : List Char) :
    rel text (n.replace replacement text) := by
  -- The search keeps the text related while it replaces one match after the other.
  have hinv := replace_invariant n replacement hne (fun done todo => rel text (done ++ todo))
    (by
      intro done c todo _ hrel
      rw [List.append_assoc]
      exact hrel)
    (by
      intro done m todo hm hend hrel
      rw [List.append_assoc]
      exact htrans text _ _ hrel (hhit done m todo hm hend))
    text [] (hrefl text)
  rw [List.append_nil, List.nil_append] at hinv
  exact hinv

/-- Places are found from left to right, behind what is passed over. -/
theorem start_le_of_mem_spansFrom (n : Needle) (text : List Char) :
    ∀ (skip index : Nat), ∀ s ∈ n.spansFrom skip index text,
      index + skip ≤ s.start ∧ s.start ≤ s.stop := by
  induction text with
  | nil => intro skip index s hs; exact absurd hs (by simp only [spansFrom, List.not_mem_nil,
      not_false_eq_true])
  | cons c text ih =>
      intro skip index s hs
      cases skip with
      | succ skip =>
          have := ih skip (index + 1) s hs
          omega
      | zero =>
          rw [spansFrom] at hs
          split at hs
          · rcases List.mem_cons.mp hs with rfl | hs
            · exact ⟨Nat.le_refl _, Nat.le_add_right _ _⟩
            · have := ih (n.chars.length - 1) (index + 1) s hs
              omega
          · have := ih 0 (index + 1) s hs
            omega

theorem exists_of_occursIn (n : Needle) (text : List Char) (h : n.occursIn text = true) :
    ∃ u rest, text = u ++ rest ∧ n.occursAt rest = true := by
  induction text with
  | nil => exact ⟨[], [], rfl, h⟩
  | cons c text ih =>
      rw [occursIn, Bool.or_eq_true] at h
      rcases h with h | h
      · exact ⟨[], c :: text, rfl, h⟩
      · rcases ih h with ⟨u, rest, rfl, hrest⟩
        exact ⟨c :: u, rest, rfl, hrest⟩

theorem occursIn_of_occursAt (n : Needle) (u rest : List Char) (h : n.occursAt rest = true) :
    n.occursIn (u ++ rest) = true := by
  induction u with
  | nil =>
      cases rest with
      | nil => exact h
      | cons c rest =>
          rw [List.nil_append, occursIn, h]
          rfl
  | cons c u ih => rw [List.cons_append, occursIn, ih, Bool.or_true]

theorem spansFrom_eq_nil (n : Needle) (text : List Char) : ∀ (skip index : Nat),
    n.occursIn text = false → n.spansFrom skip index text = [] := by
  induction text with
  | nil => intro skip index _; rw [spansFrom]
  | cons c text ih =>
      intro skip index h
      rw [occursIn, Bool.or_eq_false_iff] at h
      cases skip with
      | zero =>
          rw [spansFrom, h.1, if_neg Bool.false_ne_true]
          exact ih 0 (index + 1) h.2
      | succ skip => exact ih skip (index + 1) h.2

theorem replaceSpansFrom_cons (replacement : List Char) (index : Nat) (c : Char)
    (text : List Char) (spans : List Span)
    (h : ∀ s ∈ spans, index + 1 ≤ s.start ∧ s.start ≤ s.stop) :
    replaceSpansFrom replacement index spans (c :: text) =
      c :: replaceSpansFrom replacement (index + 1) spans text := by
  cases spans with
  | nil => rfl
  | cons s spans =>
      have hs := h s List.mem_cons_self
      have htake : s.start - index = (s.start - (index + 1)) + 1 := by omega
      have hdrop : s.stop - index = (s.stop - (index + 1)) + 1 := by omega
      rw [replaceSpansFrom, replaceSpansFrom, htake, hdrop, List.take_succ_cons,
        List.drop_succ_cons]
      rfl

theorem replaceSpansFrom_spansFrom (n : Needle) (replacement : List Char) (hne : n.chars ≠ [])
    (text : List Char) : ∀ (skip index : Nat),
      replaceSpansFrom replacement (index + skip) (n.spansFrom skip index text)
        (text.drop skip) = n.replaceFrom replacement skip text := by
  have hpos : 0 < n.chars.length := List.length_pos_of_ne_nil hne
  induction text with
  | nil => intro skip index; rw [List.drop_nil]; rfl
  | cons c text ih =>
      intro skip index
      cases skip with
      | succ skip =>
          have := ih skip (index + 1)
          rw [show index + 1 + skip = index + (skip + 1) by omega] at this
          exact this
      | zero =>
          rw [spansFrom, replaceFrom, List.drop_zero, Nat.add_zero]
          split
          · -- The needle is here: nothing is kept in front of it.
            have hrest := ih (n.chars.length - 1) (index + 1)
            rw [show index + 1 + (n.chars.length - 1) = index + n.chars.length by omega] at hrest
            rw [replaceSpansFrom, Nat.sub_self, List.take_zero, List.nil_append,
              show index + n.chars.length - index = (n.chars.length - 1) + 1 by omega,
              List.drop_succ_cons, hrest]
          · have hle := start_le_of_mem_spansFrom n text 0 (index + 1)
            rw [replaceSpansFrom_cons replacement index c text _ hle]
            have hrest := ih 0 (index + 1)
            rw [List.drop_zero, Nat.add_zero] at hrest
            rw [hrest]

/-- Replacing what was found is replacing in one walk. -/
theorem replaceSpans_spans (n : Needle) (replacement text : List Char) (hne : n.chars ≠ []) :
    replaceSpans replacement (n.spans text) text = n.replace replacement text :=
  replaceSpansFrom_spansFrom n replacement hne text 0 0

end Needle

end SchemaRename.Pattern
