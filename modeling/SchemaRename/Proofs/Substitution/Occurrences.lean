import SchemaRename.Proofs.Rule.Edges

/-!
# Occurrences by Number

A rule's matches, seen on the fields of a line.

A match is found as a piece of text, and it is followed through a line as the
number of the separator on the left of the identifier. Both say the same.
One direction is a reading of the edges: a spelling of the identifier with
its edges contains the separators that the edges ask for and no others, so it
fixes one field, the end of the one before and the start of the one behind.
In the other direction the number fixes where in the text the identifier
stands, and it remains to count how far its left edge reaches back.

Replacing one match is then a change of three fields. The identifier's own
field becomes the new one. The fields next to it keep what they are and can
change the spelling of the word that the edges ask for. Separators and all
other fields stay.

## Main definitions

* `Rule.IsOld`: The spellings of an identifier that a rule accepts.
* `RightEdge.HoldsAt`: The right edge, seen from a field.
* `Rule.OccursAt`: An occurrence by its number.
* `Rule.Hit`: One match replaced, field by field.

## Theorems

* `occursAt_of_spells`: A match in the text occurs by number.
* `needle_occursAt`: An occurrence by number is a match in the text.
* `hit_of_spells`: Replacing a match is a hit.
-/

namespace SchemaRename

open SchemaRename.Pattern SchemaRename.Text SchemaRename.Line

/-- Whether a text is the old identifier of a rule, as the rule compares. -/
def Rule.IsOld (r : Rule) (token : List Char) : Prop :=
  Spells (!r.caseSensitive) r.oldId.toList token

/-- A right edge behind a field. -/
def RightEdge.HoldsAt (right : RightEdge) (anyCase : Bool) (line : List Char) (i : Nat) : Prop :=
  match right with
  | .lineEnd => (separators line)[i]? = none
  | .sep c word => (separators line)[i]? = some c ∧
      ∃ w y, Spells anyCase word w ∧ field line (i + 1) = w ++ y
  | .pair c d => (separators line)[i]? = some c ∧ field line (i + 1) = [] ∧
      (separators line)[i + 1]? = some d

/-- An occurrence of a rule, by the number of the separator on its left. -/
structure Rule.OccursAt (r : Rule) (e : Edges) (line : List Char) (k : Nat) : Prop where
  left : (separators line)[k]? = some e.left
  word : ∃ x w, Spells (!r.caseSensitive) e.word w ∧ field line k = x ++ w
  old : r.IsOld (field line (k + 1))
  right : e.right.HoldsAt (!r.caseSensitive) line (k + 1)

/-- One match of a rule replaced: the identifier's own field and the edges in
    the fields next to it. -/
structure Rule.Hit (r : Rule) (e : Edges) (line line' : List Char) (k : Nat) : Prop where
  separators_eq : separators line' = separators line
  old : r.IsOld (field line (k + 1))
  new : field line' (k + 1) = r.newId.toList
  left : ∃ x w, Spells true e.word w ∧ field line k = x ++ w ∧ field line' k = x ++ e.word
  right : ∃ w y, Spells true e.right.word w ∧ field line (k + 2) = w ++ y ∧
    field line' (k + 2) = e.right.word ++ y
  frame : ∀ i, i ≠ k → i ≠ k + 1 → i ≠ k + 2 → field line' i = field line i

/-- A spelling of a plain text contains no separators. -/
theorem isWord_of_spells (anyCase : Bool) (word text : List Char)
    (hplain : ∀ c ∈ word, isPlainChar c = true) (h : Spells anyCase word text) :
    IsWord text := by
  induction h with
  | nil => exact fun _ hc => absurd hc List.not_mem_nil
  | cons hxc _ ih =>
      rename_i x c word text _
      have hall := List.forall_mem_cons.mp hplain
      refine List.forall_mem_cons.mpr ⟨?_, ih hall.2⟩
      rw [isSeparator,
        isIdentifierChar_of_sameFolded x c hall.1 (sameFolded_of_agrees anyCase x c hxc)]
      rfl

theorem eq_of_agrees_separator (anyCase : Bool) (x c : Char) (hx : isAsciiSeparator x = true)
    (h : agrees anyCase x c = true) : c = x := by
  rw [isAsciiSeparator, Bool.and_eq_true, decide_eq_true_eq, isSeparator, isIdentifierChar,
    Bool.not_eq_true', Bool.or_eq_false_iff, Bool.or_eq_false_iff] at hx
  exact eq_of_sameFolded_separator x c hx.1 hx.2.1.1 (sameFolded_of_agrees anyCase x c h)

theorem isSeparator_of_isAsciiSeparator (c : Char) (h : isAsciiSeparator c = true) :
    isSeparator c = true := by
  rw [isAsciiSeparator, Bool.and_eq_true] at h
  exact h.2

theorem Edges.isSound_left (e : Edges) (h : e.isSound = true) : isAsciiSeparator e.left = true := by
  rw [Edges.isSound, Bool.and_eq_true, Bool.and_eq_true] at h
  exact h.1.1

theorem Edges.isSound_word (e : Edges) (h : e.isSound = true) :
    e.word = [] ∨ e.word = selectWord := by
  rw [Edges.isSound, Bool.and_eq_true, Bool.and_eq_true, Bool.or_eq_true, beq_iff_eq,
    beq_iff_eq] at h
  exact h.1.2

theorem Edges.isSound_right_word (e : Edges) (h : e.isSound = true) :
    e.right.word = [] ∨ e.right.word = fromWord ∧ e.word = [] := by
  rw [Edges.isSound, Bool.and_eq_true] at h
  cases hright : e.right with
  | lineEnd => exact Or.inl rfl
  | pair c d => exact Or.inl rfl
  | sep c word =>
      rw [hright] at h
      simp only [Bool.and_eq_true, Bool.or_eq_true, beq_iff_eq] at h
      exact h.2.2

theorem Edges.isPlain_word (e : Edges) (h : e.isSound = true) :
    ∀ c ∈ e.word, isPlainChar c = true := by
  rw [← List.all_eq_true]
  rcases e.isSound_word h with hword | hword
  · rw [hword]
    decide
  · rw [hword]
    decide

theorem Edges.isPlain_right_word (e : Edges) (h : e.isSound = true) :
    ∀ c ∈ e.right.word, isPlainChar c = true := by
  rw [← List.all_eq_true]
  rcases e.isSound_right_word h with hword | ⟨hword, _⟩
  · rw [hword]
    decide
  · rw [hword]
    decide

theorem isPlainChar_of_isIdentifier (id : List Char) (h : isIdentifier id = true) :
    ∀ c ∈ id, isPlainChar c = true := by
  rw [isIdentifier, Bool.and_eq_true, List.all_eq_true] at h
  exact h.2

theorem ne_nil_of_isIdentifier (id : List Char) (h : isIdentifier id = true) : id ≠ [] := by
  rintro rfl
  exact absurd h (by decide)

/-- A spelling of an identifier with its edges, part by part. -/
theorem Edges.exists_parts (e : Edges) (hsound : e.isSound = true) (anyCase : Bool)
    (id m : List Char) (h : Spells anyCase (e.text id) m) :
    ∃ w o t, m = w ++ e.left :: (o ++ t) ∧ Spells anyCase e.word w ∧ Spells anyCase id o ∧
      Spells anyCase e.right.chars t := by
  rw [Edges.text, spells_append_iff] at h
  rcases h with ⟨w, rest, rfl, hw, hrest⟩
  rw [Spells, List.forall₂_cons_left_iff] at hrest
  rcases hrest with ⟨c, rest, hc, hrest, rfl⟩
  rw [eq_of_agrees_separator anyCase e.left c (e.isSound_left hsound) hc]
  rcases (spells_append_iff anyCase id e.right.chars rest).mp hrest with ⟨o, t, rfl, ho, ht⟩
  exact ⟨w, o, t, rfl, hw, ho, ht⟩

theorem Edges.isSound_sep (e : Edges) (h : e.isSound = true) (c : Char) (word : List Char)
    (hright : e.right = .sep c word) : isAsciiSeparator c = true := by
  rw [Edges.isSound, Bool.and_eq_true, hright] at h
  simp only [Bool.and_eq_true] at h
  exact h.2.1

theorem Edges.isSound_pair (e : Edges) (h : e.isSound = true) (c d : Char)
    (hright : e.right = .pair c d) :
    isAsciiSeparator c = true ∧ isAsciiSeparator d = true ∧ d ≠ e.left ∧ e.word = [] := by
  rw [Edges.isSound, Bool.and_eq_true, hright] at h
  simp only [Bool.and_eq_true, bne_iff_ne, beq_iff_eq] at h
  exact ⟨h.2.1.1.1, h.2.1.1.2, h.2.1.2, h.2.2⟩

/-- What a spelled right edge leaves at the start of the rest of a line: the
    edge holds there, and the fields are those of the edge written out, up to
    the spelling of its word. -/
theorem Edges.right_spelled (e : Edges) (hsound : e.isSound = true) (anyCase : Bool)
    (t v : List Char) (ht : Spells anyCase e.right.chars t)
    (hend : e.right.isLineEnd = true → v = []) :
    field (t ++ v) 0 = [] ∧ e.right.HoldsAt anyCase (t ++ v) 0 ∧
      separators (t ++ v) = separators (e.right.chars ++ v) ∧
      (∃ w y, Spells true e.right.word w ∧ field (t ++ v) 1 = w ++ y ∧
        field (e.right.chars ++ v) 1 = e.right.word ++ y) ∧
      ∀ i, field (t ++ v) (i + 2) = field (e.right.chars ++ v) (i + 2) := by
  have hplain := e.isPlain_right_word hsound
  cases hright : e.right with
  | lineEnd =>
      rw [hright] at ht hend
      rw [hend rfl]
      rw [RightEdge.chars, Spells, List.forall₂_nil_left_iff] at ht
      rw [ht]
      exact ⟨rfl, rfl, rfl, ⟨[], [], List.Forall₂.nil, rfl, rfl⟩, fun _ => rfl⟩
  | sep c word =>
      have hc := e.isSound_sep hsound c word hright
      have hsep := isSeparator_of_isAsciiSeparator c hc
      rw [hright] at ht hplain
      rw [RightEdge.chars, Spells, List.forall₂_cons_left_iff] at ht
      rcases ht with ⟨d, w, hd, (hw : Spells anyCase word w), rfl⟩
      rw [eq_of_agrees_separator anyCase c d hc hd]
      have hword := isWord_of_spells anyCase word w hplain hw
      -- The word is spelled on the one side and written out on the other.
      have hself := isWord_of_spells anyCase word word hplain (spells_self anyCase word)
      have hfield := field_cons_sep c (w ++ v) hsep
      have hfield' := field_cons_sep c (word ++ v) hsep
      refine ⟨hfield.1, ⟨?_, w, field v 0, hw, ?_⟩, ?_, ⟨w, field v 0, hw.folded, ?_, ?_⟩, ?_⟩
      · rw [List.cons_append, separators_cons c _ hsep, List.getElem?_cons_zero]
      · rw [List.cons_append, hfield.2 0, field_word_append w v hword, if_pos rfl]
      · rw [List.cons_append, RightEdge.chars, List.cons_append, separators_cons c _ hsep,
          separators_cons c _ hsep, separators_word_append w v hword,
          separators_word_append word v hself]
      · rw [List.cons_append, hfield.2 0, field_word_append w v hword, if_pos rfl]
      · rw [RightEdge.chars, List.cons_append, hfield'.2 0, field_word_append word v hself,
          if_pos rfl]
        rfl
      · intro i
        rw [List.cons_append, hfield.2 (i + 1), RightEdge.chars, List.cons_append,
          hfield'.2 (i + 1), field_word_append w v hword, field_word_append word v hself,
          if_neg (Nat.succ_ne_zero i), if_neg (Nat.succ_ne_zero i)]
  | pair c d =>
      have hpair := e.isSound_pair hsound c d hright
      have hc := isSeparator_of_isAsciiSeparator c hpair.1
      have hd := isSeparator_of_isAsciiSeparator d hpair.2.1
      -- Both characters are separators, so the edge is spelled as it is written.
      have htext : t = [c, d] := by
        rw [hright, RightEdge.chars, Spells, List.forall₂_cons_left_iff] at ht
        rcases ht with ⟨c', rest, hc', hrest, rfl⟩
        rw [List.forall₂_cons_left_iff] at hrest
        rcases hrest with ⟨d', rest, hd', hrest, rfl⟩
        rw [List.forall₂_nil_left_iff] at hrest
        rw [hrest, eq_of_agrees_separator anyCase c c' hpair.1 hc',
          eq_of_agrees_separator anyCase d d' hpair.2.1 hd']
      have hempty : field (c :: d :: v) 1 = [] := by
        rw [(field_cons_sep c (d :: v) hc).2 0, (field_cons_sep d v hd).1]
      rw [htext]
      refine ⟨(field_cons_sep c (d :: v) hc).1, ⟨?_, hempty, ?_⟩, rfl,
        ⟨[], [], List.Forall₂.nil, hempty, hempty⟩, fun _ => rfl⟩
      · rw [List.cons_append, separators_cons c _ hc, List.getElem?_cons_zero]
      · rw [List.cons_append, separators_cons c _ hc, List.getElem?_cons_succ, List.cons_append,
          separators_cons d _ hd, List.getElem?_cons_zero]

theorem RightEdge.holdsAt_right (right : RightEdge) (anyCase : Bool) (u : List Char) (c : Char)
    (v : List Char) (hc : isSeparator c = true) (i : Nat) :
    right.HoldsAt anyCase (u ++ c :: v) ((separators u).length + 1 + i) ↔
      right.HoldsAt anyCase v i := by
  have hfield := field_right u c v hc (i + 1)
  have hsep := getElem?_separators_right u c v hc
  cases right with
  | lineEnd => simp only [RightEdge.HoldsAt, hsep i]
  | sep d word => simp only [RightEdge.HoldsAt, hsep i, Nat.add_assoc _ i 1, hfield]
  | pair d d' =>
      simp only [RightEdge.HoldsAt, hsep i, Nat.add_assoc _ i 1, hfield, hsep (i + 1)]

theorem RightEdge.holdsAt_word_append (right : RightEdge) (anyCase : Bool) (w v : List Char)
    (hw : IsWord w) : right.HoldsAt anyCase (w ++ v) 0 ↔ right.HoldsAt anyCase v 0 := by
  have hfield := field_word_append w v hw 1
  rw [if_neg Nat.one_ne_zero] at hfield
  have hsep := separators_word_append w v hw
  cases right with
  | lineEnd => simp only [RightEdge.HoldsAt, hsep]
  | sep d word => simp only [RightEdge.HoldsAt, hsep, Nat.zero_add, hfield]
  | pair d d' => simp only [RightEdge.HoldsAt, hsep, Nat.zero_add, hfield]

/-- The fields of a line around an identifier: up to the one that ends in
    front of it, and from the identifier on. -/
theorem field_around (u w : List Char) (c : Char) (o rest : List Char) (hw : IsWord w)
    (ho : IsWord o) (hc : isSeparator c = true) :
    (∀ i, i < (separators u).length → field (u ++ w ++ c :: (o ++ rest)) i = field u i) ∧
      field (u ++ w ++ c :: (o ++ rest)) (separators u).length =
        field u (separators u).length ++ w ∧
      field (u ++ w ++ c :: (o ++ rest)) ((separators u).length + 1) = o ++ field rest 0 ∧
      ∀ i, field (u ++ w ++ c :: (o ++ rest)) ((separators u).length + 1 + (i + 1)) =
        field rest (i + 1) := by
  have hlen : (separators (u ++ w)).length = (separators u).length := by
    rw [separators_append_word u w hw]
  -- A word in front of the separator does not change its number.
  have hright := field_right (u ++ w) c (o ++ rest) hc
  rw [hlen] at hright
  refine ⟨?_, ?_, ?_, ?_⟩
  · intro i hi
    rw [field_left _ _ _ hc i (by rw [hlen]; omega), field_append_word u w hw, if_neg (by omega)]
  · rw [field_left _ _ _ hc _ (by rw [hlen]), field_append_word u w hw, if_pos rfl]
  · have := hright 0
    rw [Nat.add_zero] at this
    rw [this, field_word_append o rest ho, if_pos rfl]
  · intro i
    rw [hright (i + 1), field_word_append o rest ho, if_neg (Nat.succ_ne_zero i)]

theorem separators_around (u w : List Char) (c : Char) (o rest : List Char) (hw : IsWord w)
    (ho : IsWord o) (hc : isSeparator c = true) :
    separators (u ++ w ++ c :: (o ++ rest)) = separators u ++ c :: separators rest := by
  rw [separators_append, separators_append_word u w hw, separators_cons c _ hc,
    separators_word_append o rest ho]

/-- A match in the text occurs by number: the separators in front of it count
    it. -/
theorem occursAt_of_spells (r : Rule) (e : Edges) (h : r.Renames e) (u m v : List Char)
    (hm : Spells (!r.caseSensitive) (e.text r.oldId.toList) m)
    (hend : e.right.isLineEnd = true → v = []) :
    r.OccursAt e (u ++ (m ++ v)) (separators u).length := by
  rcases e.exists_parts h.sound _ _ m hm with ⟨w, o, t, rfl, hw, ho, ht⟩
  have hwWord := isWord_of_spells _ _ w (e.isPlain_word h.sound) hw
  have hoWord := isWord_of_spells _ _ o (isPlainChar_of_isIdentifier _ h.old) ho
  have hleft := isSeparator_of_isAsciiSeparator _ (e.isSound_left h.sound)
  rcases e.right_spelled h.sound _ t v ht hend with ⟨hempty, hholds, _⟩
  rcases field_around u w e.left o (t ++ v) hwWord hoWord hleft with ⟨_, hat, hid, _⟩
  have hline : u ++ (w ++ e.left :: (o ++ t) ++ v) = u ++ w ++ e.left :: (o ++ (t ++ v)) := by
    simp only [List.append_assoc, List.cons_append]
  rw [hline]
  refine ⟨?_, ⟨_, w, hw, hat⟩, ?_, ?_⟩
  · rw [separators_around u w _ o _ hwWord hoWord hleft,
      List.getElem?_append_right (Nat.le_refl _), Nat.sub_self, List.getElem?_cons_zero]
  · rw [Rule.IsOld, hid, hempty, List.append_nil]
    exact ho
  · -- The right edge was seen at the start of the rest, and moves to its number.
    have hshift := e.right.holdsAt_right (!r.caseSensitive) (u ++ w) e.left (o ++ (t ++ v)) hleft 0
    rw [separators_append_word u w hwWord, Nat.add_zero] at hshift
    rw [hshift, e.right.holdsAt_word_append _ o (t ++ v) hoWord]
    exact hholds

/-- Replacing a match is a hit. -/
theorem hit_of_spells (r : Rule) (e : Edges) (h : r.Renames e) (u m v : List Char)
    (hm : Spells (!r.caseSensitive) (e.text r.oldId.toList) m)
    (hend : e.right.isLineEnd = true → v = []) :
    r.Hit e (u ++ (m ++ v)) (u ++ (r.replacement.toList ++ v)) (separators u).length := by
  rcases e.exists_parts h.sound _ _ m hm with ⟨w, o, t, rfl, hw, ho, ht⟩
  have hwWord := isWord_of_spells _ _ w (e.isPlain_word h.sound) hw
  have hoWord := isWord_of_spells _ _ o (isPlainChar_of_isIdentifier _ h.old) ho
  have hwordWord := isWord_of_spells true _ _ (e.isPlain_word h.sound) (spells_self true e.word)
  have hnewWord := isWord_of_spells true _ _ (isPlainChar_of_isIdentifier _ h.new)
    (spells_self true r.newId.toList)
  have hleft := isSeparator_of_isAsciiSeparator _ (e.isSound_left h.sound)
  rcases e.right_spelled h.sound _ t v ht hend with ⟨hempty, _, hseps, ⟨x, y, hx, hy, hy'⟩, hrest⟩
  rcases e.right_spelled h.sound true e.right.chars v (spells_self true _) hend with ⟨hempty', _⟩
  rcases field_around u w e.left o (t ++ v) hwWord hoWord hleft with ⟨hlt, hat, hid, hgt⟩
  rcases field_around u e.word e.left r.newId.toList (e.right.chars ++ v) hwordWord hnewWord hleft
    with ⟨hlt', hat', hid', hgt'⟩
  have hline : u ++ (w ++ e.left :: (o ++ t) ++ v) = u ++ w ++ e.left :: (o ++ (t ++ v)) := by
    simp only [List.append_assoc, List.cons_append]
  -- Both lines have the same shape: a word, the left edge, a word, the right edge.
  have hline' : u ++ (r.replacement.toList ++ v) =
      u ++ e.word ++ e.left :: (r.newId.toList ++ (e.right.chars ++ v)) := by
    rw [h.replaces, Edges.text]
    simp only [List.append_assoc, List.cons_append]
  rw [hline, hline']
  refine ⟨?_, ?_, ?_, ⟨_, w, hw.folded, hat, hat'⟩, ⟨x, y, hx, ?_, ?_⟩, ?_⟩
  · rw [separators_around u w _ o _ hwWord hoWord hleft,
      separators_around u e.word _ _ _ hwordWord hnewWord hleft, hseps]
  · rw [Rule.IsOld, hid, hempty, List.append_nil]
    exact ho
  · rw [hid', hempty', List.append_nil]
  · exact (hgt 0).trans hy
  · exact (hgt' 0).trans hy'
  · intro i hi hi1 hi2
    by_cases hlow : i < (separators u).length
    · rw [hlt i hlow, hlt' i hlow]
    · -- What is left lies behind the fields that the right edge touches.
      rcases Nat.exists_eq_add_of_lt (show (separators u).length + 2 < i by omega) with ⟨k, rfl⟩
      have hk : (separators u).length + 2 + k + 1 = (separators u).length + 1 + (k + 1 + 1) := by
        omega
      rw [hk, hgt (k + 1), hgt' (k + 1), hrest k]

theorem RightEdge.exists_spelled (right : RightEdge) (anyCase : Bool) (line : List Char)
    (h : right.HoldsAt anyCase line 0) :
    ∃ t v, line = field line 0 ++ (t ++ v) ∧ Spells anyCase right.chars t ∧
      (right.isLineEnd = true → v = []) := by
  cases right with
  | lineEnd =>
      have hnil : separators line = [] := by
        rw [RightEdge.HoldsAt, List.getElem?_eq_none_iff] at h
        exact List.eq_nil_of_length_eq_zero (Nat.le_zero.mp h)
      have hword := (separators_eq_nil_iff line).mp hnil
      refine ⟨[], [], ?_, List.Forall₂.nil, fun _ => rfl⟩
      rw [field_word line hword, List.append_nil, List.append_nil]
  | sep c word =>
      rcases h with ⟨hc, w, y, hw, hwy⟩
      rcases exists_split_zero line c hc with ⟨v, hline, hsep, hword⟩
      rcases exists_eq_field_append v with ⟨rest, hv⟩
      have hfield : field v 0 = w ++ y := by
        rw [hline, field_word_append _ _ hword, if_neg (Nat.succ_ne_zero 0),
          (field_cons_sep c v hsep).2 0] at hwy
        exact hwy
      refine ⟨c :: w, y ++ rest, ?_, List.Forall₂.cons (agrees_self anyCase c) hw, ?_⟩
      · rw [hfield, List.append_assoc] at hv
        rw [List.cons_append, ← hv]
        exact hline
      · intro hend
        exact absurd hend Bool.false_ne_true
  | pair c d =>
      rcases h with ⟨hc, hempty, hd⟩
      rcases exists_split_zero line c hc with ⟨v, hline, hsep, hword⟩
      have hfield : field v 0 = [] := by
        rw [hline, field_word_append _ _ hword, if_neg (Nat.succ_ne_zero 0),
          (field_cons_sep c v hsep).2 0] at hempty
        exact hempty
      have hnext : (separators v)[0]? = some d := by
        rw [hline, separators_word_append _ _ hword, separators_cons c v hsep] at hd
        exact hd
      rcases exists_split_zero v d hnext with ⟨rest, hv, _⟩
      refine ⟨[c, d], rest, ?_, spells_self anyCase [c, d], ?_⟩
      · rw [hfield, List.nil_append] at hv
        rw [List.cons_append, List.cons_append, List.nil_append, ← hv]
        exact hline
      · intro hend
        exact absurd hend Bool.false_ne_true

/-- An occurrence by number is a match in the text, at the place where the
    left edge is as long as what is left of its field. -/
theorem needle_occursAt (r : Rule) (e : Edges) (done todo : List Char)
    (hocc : r.OccursAt e (done ++ todo) (separators done).length)
    (hlen : (field todo 0).length = e.word.length) :
    (e.needle (!r.caseSensitive) r.oldId.toList).occursAt todo = true := by
  -- The separator of the occurrence is the first one still to be seen.
  have hleft : (separators todo)[0]? = some e.left := by
    have := hocc.left
    rw [separators_append, List.getElem?_append_right (Nat.le_refl _), Nat.sub_self] at this
    exact this
  rcases exists_split_zero todo e.left hleft with ⟨rest, htodo, hsep, hword⟩
  have hline : done ++ todo = done ++ field todo 0 ++ e.left :: ([] ++ rest) := by
    rw [List.append_assoc, List.nil_append, ← htodo]
  have hnil : IsWord [] := fun _ hc => absurd hc List.not_mem_nil
  rcases field_around done (field todo 0) e.left [] rest hword hnil hsep with ⟨_, hat, hid, _⟩
  rcases hocc with ⟨_, ⟨x, w, hw, hxw⟩, hold, hright⟩
  rw [hline] at hxw hold hright
  -- The left edge ends its field, and what is left of the field has its length.
  have hspelled : Spells (!r.caseSensitive) e.word (field todo 0) := by
    rw [hat] at hxw
    have hwlen : (field todo 0).length = w.length := by
      rw [hlen, List.Forall₂.length_eq hw]
    rw [List.append_inj_right' hxw hwlen]
    exact hw
  rw [hid, List.nil_append] at hold
  have hshift := e.right.holdsAt_right (!r.caseSensitive) (done ++ field todo 0) e.left rest hsep 0
  rw [separators_append_word done _ hword, Nat.add_zero] at hshift
  rcases e.right.exists_spelled _ rest (hshift.mp hright) with ⟨t, v, hrest, ht, hend⟩
  rw [Needle.occursAt_iff]
  refine ⟨field todo 0 ++ e.left :: (field rest 0 ++ t), v, ?_, ?_, hend⟩
  · rw [List.append_assoc, List.cons_append, List.append_assoc, ← hrest]
    exact htodo
  · rw [Edges.needle, Edges.text, spells_append_iff]
    refine ⟨_, _, rfl, hspelled, List.Forall₂.cons (agrees_self _ e.left) ?_⟩
    exact (spells_append_iff _ _ _ _).mpr ⟨_, _, rfl, hold, ht⟩

end SchemaRename
