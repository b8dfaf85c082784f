import Mathlib.Data.List.Forall2
import Mathlib.Data.List.GetD
import SchemaRename.Proofs.Text.Identifier

/-!
# The Fields of a Line

A line as separators with fields between them.

A line with `k` separators has `k + 1` fields, some of them empty, and is
determined by both lists. Fields are counted and not looked up by position in
the text: replacing one field by another text without separators moves all
characters behind it and leaves every other field with its number. That is
what makes this view fit to follow a line through many replacements.

The tokens of a line are its fields that are not empty.

## Main definitions

* `fields`, `separators`: The two lists.
* `field`: A field by its number; behind the last one all are empty.
* `tokens`: The fields that are not empty.

## Theorems

* `field_left`, `field_right`: The fields on both sides of a separator.
* `field_append_lt`, `field_append`: The fields of a line with something behind
  it.
* `field_append_word`, `field_word_append`: A field made longer at its end, and
  at its start.
* `exists_split`: A separator by its number, as a split of the line.
* `exists_split_zero`, `exists_eq_field_append`: The start of a line.
* `getElem?_separators_right`: The separators behind one of them.
* `eq_of_fields`: A line is determined by its separators and fields.
* `forall₂_fields`, `forall₂_tokens`: Relating lines number by number.
-/

namespace SchemaRename.Line

open SchemaRename.Text

/-- The texts between the separators of a line. -/
def fields (line : List Char) : List (List Char) :=
  line.splitOnP isSeparator

def separators (line : List Char) : List Char :=
  line.filter isSeparator

/-- The maximal runs of identifier characters in a line. -/
def tokens (line : List Char) : List (List Char) :=
  (fields line).filter (!·.isEmpty)

/-- A field by its number. -/
def field (line : List Char) (i : Nat) : List Char :=
  (fields line).getD i []

/-- A text that contains no separators. -/
def IsWord (w : List Char) : Prop :=
  ∀ c ∈ w, isSeparator c = false

theorem separators_append (u v : List Char) : separators (u ++ v) = separators u ++ separators v :=
  List.filter_append u v

theorem separators_cons (c : Char) (v : List Char) (hc : isSeparator c = true) :
    separators (c :: v) = c :: separators v :=
  List.filter_cons_of_pos hc

theorem separators_eq_nil_iff (w : List Char) : separators w = [] ↔ IsWord w := by
  rw [separators, List.filter_eq_nil_iff]
  constructor
  · intro h c hc
    exact Bool.eq_false_iff.mpr (h c hc)
  · intro h c hc
    exact Bool.eq_false_iff.mp (h c hc)

theorem separators_word_append (w v : List Char) (hw : IsWord w) :
    separators (w ++ v) = separators v := by
  rw [separators_append, (separators_eq_nil_iff w).mpr hw, List.nil_append]

theorem separators_append_word (u w : List Char) (hw : IsWord w) :
    separators (u ++ w) = separators u := by
  rw [separators_append, (separators_eq_nil_iff w).mpr hw, List.append_nil]

theorem fields_append_sep (u : List Char) (c : Char) (v : List Char) (hc : isSeparator c = true) :
    fields (u ++ c :: v) = fields u ++ fields v :=
  List.splitOnP_append_cons u v hc

theorem fields_word (w : List Char) (hw : IsWord w) : fields w = [w] :=
  List.splitOnP_eq_singleton hw

theorem length_fields (line : List Char) :
    (fields line).length = (separators line).length + 1 := by
  induction line with
  | nil => rfl
  | cons c line ih =>
      rw [fields, List.splitOnP_cons_eq_if_modifyHead, separators]
      rw [fields, separators] at ih
      cases hc : isSeparator c with
      | true =>
          rw [if_pos rfl, List.filter_cons_of_pos hc, List.length_cons, ih, List.length_cons]
      | false =>
          rw [if_neg Bool.false_ne_true,
            List.filter_cons_of_neg (by rw [hc]; exact Bool.false_ne_true),
            List.length_modifyHead, ih]

theorem field_left (u : List Char) (c : Char) (v : List Char) (hc : isSeparator c = true) (i : Nat)
    (hi : i ≤ (separators u).length) : field (u ++ c :: v) i = field u i := by
  rw [field, fields_append_sep u c v hc,
    List.getD_append _ _ _ _ (by rw [length_fields]; omega), field]

theorem field_right (u : List Char) (c : Char) (v : List Char) (hc : isSeparator c = true)
    (i : Nat) : field (u ++ c :: v) ((separators u).length + 1 + i) = field v i := by
  rw [field, fields_append_sep u c v hc,
    List.getD_append_right _ _ _ _ (by rw [length_fields]; omega), length_fields,
    Nat.add_sub_cancel_left, field]

theorem field_of_lt (line : List Char) (i : Nat) (hi : (separators line).length < i) :
    field line i = [] := by
  rw [field, List.getD_eq_default]
  rw [length_fields]
  omega

theorem field_word (w : List Char) (hw : IsWord w) : field w 0 = w := by
  rw [field, fields_word w hw]
  rfl

/-- A line ends with its last field, and in front of it there is a separator
    or nothing. -/
theorem exists_last (u : List Char) : ∃ x, IsWord x ∧
    (u = x ∨ ∃ front c, isSeparator c = true ∧ u = front ++ c :: x) := by
  induction u with
  | nil => exact ⟨[], fun _ h => absurd h List.not_mem_nil, Or.inl rfl⟩
  | cons c u ih =>
      rcases ih with ⟨x, hx, rfl | ⟨front, d, hd, rfl⟩⟩
      · cases hc : isSeparator c with
        | true => exact ⟨u, hx, Or.inr ⟨[], c, hc, rfl⟩⟩
        | false => exact ⟨c :: u, List.forall_mem_cons.mpr ⟨hc, hx⟩, Or.inl rfl⟩
      · exact ⟨x, hx, Or.inr ⟨c :: front, d, hd, rfl⟩⟩

theorem fields_word_append (w v : List Char) (hw : IsWord w) :
    fields (w ++ v) = (fields v).modifyHead (w ++ ·) := by
  induction w with
  | nil =>
      rcases List.exists_cons_of_ne_nil (List.splitOnP_ne_nil isSeparator v) with ⟨x, xs, hx⟩
      rw [List.nil_append, fields, hx]
      rfl
  | cons c w ih =>
      have hw := List.forall_mem_cons.mp hw
      rw [List.cons_append, fields, List.splitOnP_cons_eq_if_modifyHead, hw.1,
        if_neg Bool.false_ne_true, ← fields, ih hw.2, List.modifyHead_modifyHead]
      rfl

/-- A word in front of a line makes its first field longer and changes no
    other. -/
theorem field_word_append (w v : List Char) (hw : IsWord w) (i : Nat) :
    field (w ++ v) i = if i = 0 then w ++ field v 0 else field v i := by
  rcases List.exists_cons_of_ne_nil (List.splitOnP_ne_nil isSeparator v) with ⟨x, xs, hx⟩
  rw [field, fields_word_append w v hw, field, field, fields, hx]
  cases i with
  | zero => rfl
  | succ i => rfl

theorem length_field_cons (c : Char) (v : List Char) (hc : isSeparator c = false) :
    (field (c :: v) 0).length = (field v 0).length + 1 := by
  have := field_word_append [c] v (List.forall_mem_singleton.mpr hc) 0
  rw [if_pos rfl] at this
  rw [show c :: v = [c] ++ v from rfl, this, List.length_append, List.length_singleton]
  omega

/-- A separator in front of a line puts an empty field in front of its
    fields. -/
theorem field_cons_sep (c : Char) (v : List Char) (hc : isSeparator c = true) :
    field (c :: v) 0 = [] ∧ ∀ i, field (c :: v) (i + 1) = field v i := by
  refine ⟨field_left [] c v hc 0 (Nat.zero_le _), ?_⟩
  intro i
  have := field_right [] c v hc i
  rw [show (separators []).length + 1 + i = i + 1 from by
    rw [separators, List.filter_nil, List.length_nil]; omega] at this
  exact this

theorem length_separators_last (front : List Char) (c : Char) (x : List Char)
    (hc : isSeparator c = true) (hx : IsWord x) :
    (separators (front ++ c :: x)).length = (separators front).length + 1 := by
  rw [separators_append, separators_cons c x hc, (separators_eq_nil_iff x).mpr hx,
    List.length_append]
  rfl

/-- Fields in front of the last one do not depend on what follows. -/
theorem field_append_lt (u v : List Char) (i : Nat) (hi : i < (separators u).length) :
    field (u ++ v) i = field u i := by
  rcases exists_last u with ⟨x, hx, rfl | ⟨front, c, hc, rfl⟩⟩
  · rw [(separators_eq_nil_iff u).mpr hx] at hi
    exact absurd hi (Nat.not_lt_zero i)
  · -- The last separator lies behind the field, and everything new behind that.
    have hle : i ≤ (separators front).length := by
      rw [length_separators_last front c x hc hx] at hi
      omega
    rw [List.append_assoc, List.cons_append, field_left _ _ _ hc i hle, field_left _ _ _ hc i hle]

/-- Where two lines meet, the last field of the one becomes one with the first
    field of the other. -/
theorem field_append (u v : List Char) :
    field (u ++ v) (separators u).length = field u (separators u).length ++ field v 0 := by
  rcases exists_last u with ⟨x, hx, rfl | ⟨front, c, hc, rfl⟩⟩
  · rw [(separators_eq_nil_iff u).mpr hx, List.length_nil, field_word_append u v hx, if_pos rfl,
      field_word u hx]
  · have hlen : (separators (front ++ c :: x)).length = (separators front).length + 1 + 0 :=
      length_separators_last front c x hc hx
    rw [hlen, List.append_assoc, List.cons_append, field_right _ _ _ hc, field_right _ _ _ hc,
      field_word_append x v hx, if_pos rfl, field_word x hx]

/-- A word behind a line makes its last field longer and changes no other. -/
theorem field_append_word (u w : List Char) (hw : IsWord w) (i : Nat) :
    field (u ++ w) i =
      if i = (separators u).length then field u i ++ w else field u i := by
  by_cases hi : i = (separators u).length
  · rw [if_pos hi, hi, field_append u w, field_word w hw]
  · rw [if_neg hi]
    by_cases hlt : i < (separators u).length
    · exact field_append_lt u w i hlt
    · -- Behind the last field there is nothing, with the word or without.
      rw [field_of_lt (u ++ w) i (by rw [separators_append_word u w hw]; omega),
        field_of_lt u i (by omega)]

theorem exists_split (line : List Char) : ∀ (k : Nat) (c : Char),
    (separators line)[k]? = some c →
      ∃ u v, line = u ++ c :: v ∧ isSeparator c = true ∧ (separators u).length = k := by
  induction line with
  | nil => intro k c h; exact absurd h (by simp only [separators, List.filter_nil,
      List.getElem?_nil, reduceCtorEq, not_false_eq_true])
  | cons d line ih =>
      intro k c h
      cases hd : isSeparator d with
      | false =>
          rw [separators, List.filter_cons_of_neg (by rw [hd]; exact Bool.false_ne_true),
            ← separators] at h
          rcases ih k c h with ⟨u, v, rfl, hc, hk⟩
          refine ⟨d :: u, v, rfl, hc, ?_⟩
          rw [separators, List.filter_cons_of_neg (by rw [hd]; exact Bool.false_ne_true)]
          exact hk
      | true =>
          rw [separators_cons d line hd] at h
          cases k with
          | zero =>
              rw [List.getElem?_cons_zero, Option.some.injEq] at h
              rw [← h]
              exact ⟨[], line, rfl, hd, rfl⟩
          | succ k =>
              rw [List.getElem?_cons_succ] at h
              rcases ih k c h with ⟨u, v, rfl, hc, hk⟩
              refine ⟨d :: u, v, rfl, hc, ?_⟩
              rw [separators_cons d u hd, List.length_cons, hk]

/-- The first separator stands directly behind the first field. -/
theorem exists_split_zero (line : List Char) (c : Char) (h : (separators line)[0]? = some c) :
    ∃ v, line = field line 0 ++ c :: v ∧ isSeparator c = true ∧ IsWord (field line 0) := by
  rcases exists_split line 0 c h with ⟨u, v, rfl, hc, hlen⟩
  have hword : IsWord u := (separators_eq_nil_iff u).mp (List.eq_nil_of_length_eq_zero hlen)
  rw [field_left u c v hc 0 (Nat.zero_le _), field_word u hword]
  exact ⟨v, rfl, hc, hword⟩

theorem exists_eq_field_append (line : List Char) : ∃ v, line = field line 0 ++ v := by
  cases h : (separators line)[0]? with
  | none =>
      have hword : IsWord line := by
        rw [← separators_eq_nil_iff, List.eq_nil_iff_length_eq_zero]
        have := List.getElem?_eq_none_iff.mp h
        omega
      exact ⟨[], by rw [field_word line hword, List.append_nil]⟩
  | some c =>
      rcases exists_split_zero line c h with ⟨v, hv, _⟩
      exact ⟨c :: v, hv⟩

theorem getElem?_separators_right (u : List Char) (c : Char) (v : List Char)
    (hc : isSeparator c = true) (i : Nat) :
    (separators (u ++ c :: v))[(separators u).length + 1 + i]? = (separators v)[i]? := by
  rw [separators_append, separators_cons c v hc, Nat.add_assoc,
    List.getElem?_append_right (Nat.le_add_right _ _), Nat.add_sub_cancel_left, Nat.add_comm 1 i,
    List.getElem?_cons_succ]

/-- A line is determined by its separators and its fields. -/
theorem eq_of_fields (line : List Char) : ∀ line' : List Char,
    separators line' = separators line → (∀ i, field line' i = field line i) →
      line' = line := by
  induction line with
  | nil =>
      intro line' hsep hfield
      have hword : IsWord line' := (separators_eq_nil_iff line').mp hsep
      rw [← field_word line' hword, hfield 0]
      rfl
  | cons c line ih =>
      intro line' hsep hfield
      cases hc : isSeparator c with
      | true =>
          have hfirst : (separators line')[0]? = some c := by
            rw [hsep, separators_cons c line hc, List.getElem?_cons_zero]
          rcases exists_split_zero line' c hfirst with ⟨v, hv, _⟩
          rw [hfield 0, (field_cons_sep c line hc).1, List.nil_append] at hv
          subst hv
          rw [separators_cons c v hc, separators_cons c line hc, List.cons.injEq] at hsep
          rw [ih v hsep.2]
          intro i
          have hi := hfield (i + 1)
          rw [(field_cons_sep c v hc).2 i, (field_cons_sep c line hc).2 i] at hi
          exact hi
      | false =>
          -- The character is the first one of the first field of both lines.
          have hword : IsWord [c] := List.forall_mem_singleton.mpr hc
          have hcons := field_word_append [c] line hword
          rcases exists_eq_field_append line' with ⟨v, hv⟩
          rw [hfield 0, show c :: line = [c] ++ line from rfl, hcons 0, if_pos rfl,
            List.append_assoc] at hv
          generalize hrest : field line 0 ++ v = rest at hv
          subst hv
          have hcons' := field_word_append [c] rest hword
          rw [separators_word_append [c] rest hword, show c :: line = [c] ++ line from rfl,
            separators_word_append [c] line hword] at hsep
          rw [ih rest hsep, List.singleton_append]
          intro i
          have hi := hfield i
          rw [show c :: line = [c] ++ line from rfl, hcons i, hcons' i] at hi
          by_cases hzero : i = 0
          · rw [if_pos hzero, if_pos hzero, List.append_cancel_left_eq] at hi
            rw [hzero]
            exact hi
          · rw [if_neg hzero, if_neg hzero] at hi
            exact hi

theorem forall₂_fields (r : List Char → List Char → Prop) (line line' : List Char)
    (hsep : separators line' = separators line) (h : ∀ i, r (field line i) (field line' i)) :
    List.Forall₂ r (fields line) (fields line') := by
  have hlen : (fields line).length = (fields line').length := by
    rw [length_fields, length_fields, hsep]
  -- Both lines have the same number of fields, so numbers say it all.
  rw [List.forall₂_iff_get]
  refine ⟨hlen, ?_⟩
  intro i hi hi'
  have hr := h i
  rw [field, List.getD_eq_getElem _ _ hi, field, List.getD_eq_getElem _ _ hi'] at hr
  exact hr

/-- Tokens are related if fields are, provided that only empty fields are
    related to empty ones. -/
theorem forall₂_tokens (r : List Char → List Char → Prop) (hr : ∀ x y, r x y → (x = [] ↔ y = []))
    (line line' : List Char) (h : List.Forall₂ r (fields line) (fields line')) :
    List.Forall₂ r (tokens line) (tokens line') := by
  rw [tokens, tokens]
  generalize fields line = xs at h
  generalize fields line' = ys at h
  induction h with
  | nil => exact List.Forall₂.nil
  | cons hxy _ ih =>
      rename_i x y xs ys _
      -- Both fields are tokens, or neither is.
      have hempty : x.isEmpty = y.isEmpty := by
        rw [Bool.eq_iff_iff, List.isEmpty_iff, List.isEmpty_iff]
        exact hr x y hxy
      rw [List.filter_cons, List.filter_cons, hempty]
      split
      · exact List.Forall₂.cons hxy ih
      · exact ih

end SchemaRename.Line
