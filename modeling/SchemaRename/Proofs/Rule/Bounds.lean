import SchemaRename.Proofs.Rule.Literal
import SchemaRename.Template.Overlap

/-!
# Names Between Bounds

Templates whose boundaries are made of characters that no name contains.

Such a boundary cannot reach into a name, and a name cannot reach into it. So
a match is a whole name with its bounds next to it, and two matches in one
text are about the same name or about names that stand apart. What is written
in place of a name is not seen by matches about other names.

What templates ask for is given by the texts before and behind the name. The
end of the line is a bound without characters.

## Main definitions

* `Bounds`: The texts that a template asks for.
* `Bounds.Fits`: Bounds next to a gap in a text.
* `Caseless`: Characters that agree with nothing else.
* `IsName`: Texts without bounds in them.
* `Rule.Bounded`: A rule known by its bounds.

## Theorems

* `Template.needle_eq_bounds`, `Template.toList_replacement`: What a template
  looks for and writes, by its bounds.
* `run_cases`: Two names in one text are the same or stand apart.
* `isMatch_iff`: A rule matches a text in which its name stands between its
  bounds.
* `isMatch_of_replaced`: A name that is replaced is not seen by matches about
  other names.
* `boundaryOverlaps_iff`: Boundaries that share characters.
-/

namespace SchemaRename

open SchemaRename.Pattern SchemaRename.Text

/-- The texts that a template asks for on both sides of a name. No text on the
    right stands for the end of the line. -/
structure Bounds where
  before : List Char
  after : List Char
deriving Repr, DecidableEq

namespace Bounds

/-- A name between its bounds. -/
def text (b : Bounds) (id : List Char) : List Char :=
  b.before ++ (id ++ b.after)

/-- Bounds next to a gap in a text, between what is on the left of it and what
    is on the right. -/
structure Fits (b : Bounds) (x y : List Char) : Prop where
  before : b.before <:+ x
  after : b.after <+: y
  atEnd : b.after = [] → y = []

/-- Bounds that can both be next to one name. -/
def Meets (b b' : Bounds) : Prop :=
  ∃ x y, b.Fits x y ∧ b'.Fits x y

end Bounds

/-- The bounds of a template. -/
def Template.bounds (t : Template) : Bounds :=
  ⟨t.before.toList, if t.isEndOfLine then [] else t.after.toList⟩

theorem Template.needle_eq_bounds (t : Template) (caseSensitive : Bool) (oldId : String) :
    t.needle caseSensitive oldId =
      ⟨t.bounds.text oldId.toList, !caseSensitive, t.isEndOfLine⟩ := by
  unfold Template.needle Bounds.text Template.bounds
  rw [List.append_assoc]

/-- With nothing put around it, a new name gets the bounds of the old one. -/
theorem Template.toList_replacement (t : Template) (newId : String)
    (hfront : t.replacementPrefix.getD "" = "") (hback : t.replacementSuffix.getD "" = "") :
    (t.replacement newId).toList = t.bounds.text newId.toList := by
  rw [Template.replacement, hfront, hback]
  unfold Bounds.text Template.bounds
  cases t.isEndOfLine <;>
    simp only [String.toList_append, if_true, if_false, Bool.false_eq_true, String.reduceToList,
      List.nil_append, List.append_nil, List.append_assoc]

section Names

/-- Characters without letter case: nothing else agrees with them. -/
def Caseless (isBound : Char → Prop) : Prop :=
  ∀ c, isBound c → ∀ d, sameFolded c d = true → d = c

variable (isBound : Char → Prop)

/-- A text that can be a name: not empty, and without bounds in it. -/
structure IsName (n : List Char) : Prop where
  ne_nil : n ≠ []
  clear : ∀ c ∈ n, ¬ isBound c

/-- A text with a name behind it: it ends with a bound. -/
def Opens (x : List Char) : Prop :=
  ∃ u c, x = u ++ [c] ∧ isBound c

/-- A text with a name in front of it: it starts with a bound, or there is
    nothing. -/
def Closes (y : List Char) : Prop :=
  ∀ c v, y = c :: v → isBound c

variable {isBound}

theorem name_ext (n o y y' : List Char) (hn : IsName isBound n) (ho : IsName isBound o)
    (hy : Closes isBound y) (hy' : Closes isBound y') (h : n ++ y = o ++ y') :
    n = o ∧ y = y' := by
  rcases List.append_eq_append_iff.mp h with ⟨w, how, hyw⟩ | ⟨w, hnw, hyw⟩
  · cases w with
    | nil => exact ⟨by rw [how, List.append_nil], hyw⟩
    | cons c w => exact absurd (hy c _ hyw) (ho.clear c (by rw [how]; simp))
  · cases w with
    | nil => exact ⟨by rw [hnw, List.append_nil], hyw.symm⟩
    | cons c w => exact absurd (hy' c _ hyw) (hn.clear c (by rw [hnw]; simp))

/-- Of two names in one text, one that does not start behind the other is the
    other one or ends before it. -/
theorem run_cases_of_le (x n y x' o y' z : List Char) (hn : IsName isBound n)
    (ho : IsName isBound o) (hx' : Opens isBound x') (hy : Closes isBound y)
    (hy' : Closes isBound y') (hz : x' = x ++ z) (h : n ++ y = z ++ (o ++ y')) :
    (x = x' ∧ n = o ∧ y = y') ∨ ∃ w, x' = x ++ (n ++ w) ∧ y = w ++ (o ++ y') := by
  by_cases hnil : z = []
  · rw [hnil, List.nil_append] at h
    rw [hnil, List.append_nil] at hz
    exact Or.inl ⟨hz.symm, name_ext n o y y' hn ho hy hy' h⟩
  · -- What is between the two starts ends with a bound, so it is longer than the name.
    have hlast : ∃ c ∈ z, isBound c := by
      rcases hx' with ⟨u, c, hu, hc⟩
      refine ⟨z.getLast hnil, List.getLast_mem hnil, ?_⟩
      have hgetLast : (x ++ z).getLast (by simp [hnil]) = c := by
        simp only [← hz, hu, List.getLast_append_singleton]
      rw [List.getLast_append_of_right_ne_nil _ _ hnil] at hgetLast
      rw [hgetLast]
      exact hc
    rcases List.append_eq_append_iff.mp h with ⟨w, hzw, hyw⟩ | ⟨w, hnw, -⟩
    · exact Or.inr ⟨w, by rw [hz, hzw], hyw⟩
    · rcases hlast with ⟨c, hc, hbound⟩
      exact absurd hbound (hn.clear c (by rw [hnw]; exact List.mem_append_left w hc))

/-- Two names in one text are the same, or one of them ends before the other
    starts. -/
theorem run_cases (x n y x' o y' : List Char) (hn : IsName isBound n) (ho : IsName isBound o)
    (hx : Opens isBound x) (hx' : Opens isBound x') (hy : Closes isBound y)
    (hy' : Closes isBound y') (h : x ++ (n ++ y) = x' ++ (o ++ y')) :
    (x = x' ∧ n = o ∧ y = y') ∨ (∃ w, x' = x ++ (n ++ w) ∧ y = w ++ (o ++ y')) ∨
      ∃ w, x = x' ++ (o ++ w) ∧ y' = w ++ (n ++ y) := by
  rcases List.append_eq_append_iff.mp h with ⟨z, hz, hrest⟩ | ⟨z, hz, hrest⟩
  · rcases run_cases_of_le x n y x' o y' z hn ho hx' hy hy' hz hrest with hsame | hbefore
    · exact Or.inl hsame
    · exact Or.inr (Or.inl hbefore)
  · rcases run_cases_of_le x' o y' x n y z ho hn hx hy' hy hz hrest with ⟨hxx, hno, hyy⟩ | hbefore
    · exact Or.inl ⟨hxx.symm, hno.symm, hyy.symm⟩
    · exact Or.inr (Or.inr hbefore)

/-- A text of bounds that ends where something behind a name ends does not reach
    back to the name. -/
theorem suffix_of_name (b x n z : List Char) (hb : ∀ c ∈ b, isBound c) (hn : IsName isBound n)
    (h : b <:+ x ++ (n ++ z)) : b <:+ z := by
  rcases h with ⟨p, hp⟩
  rw [← List.append_assoc] at hp
  rcases List.append_eq_append_iff.mp hp with ⟨w, hxn, hbw⟩ | ⟨w, -, hz⟩
  · by_cases hnil : w = []
    · have hbz : b = z := by rw [hbw, hnil, List.nil_append]
      exact hbz ▸ List.suffix_refl z
    · -- Otherwise the last character of the name would be one of them.
      exfalso
      have hlast : (x ++ n).getLast (by simp [hn.ne_nil]) = w.getLast hnil := by
        simp only [hxn, List.getLast_append_of_right_ne_nil _ _ hnil]
      rw [List.getLast_append_of_right_ne_nil _ _ hn.ne_nil] at hlast
      have hmem : n.getLast hn.ne_nil ∈ b := by
        rw [hlast, hbw]
        exact List.mem_append_left z (List.getLast_mem hnil)
      exact hn.clear _ (List.getLast_mem hn.ne_nil) (hb _ hmem)
  · exact ⟨w, hz.symm⟩

/-- And one that starts where something in front of a name starts does not reach
    the name. -/
theorem prefix_of_name (a z n y : List Char) (ha : ∀ c ∈ a, isBound c) (hn : IsName isBound n)
    (h : a <+: z ++ (n ++ y)) : a <+: z := by
  rcases h with ⟨s, hs⟩
  rcases List.append_eq_append_iff.mp hs with ⟨w, hz, -⟩ | ⟨w, haw, hrest⟩
  · exact ⟨w, hz.symm⟩
  · cases w with
    | nil => exact ⟨[], by rw [haw, List.append_nil, List.append_nil]⟩
    | cons c w =>
        exfalso
        rcases List.exists_cons_of_ne_nil hn.ne_nil with ⟨d, n', hd⟩
        rw [hd, List.cons_append, List.cons_append, List.cons.injEq] at hrest
        have hmem : c ∈ n := by
          rw [hd, hrest.1]
          exact List.mem_cons_self
        exact hn.clear c hmem (ha c (by rw [haw]; simp))

end Names

/-- A rule that looks for a name between bounds and puts another one there. -/
structure Rule.Bounded (r : Rule) (isBound : Char → Prop) (b : Bounds) : Prop where
  finds : Finds r.matcher ⟨b.text r.oldId.toList, !r.caseSensitive, b.after.isEmpty⟩
  replaces : r.replacement.toList = b.text r.newId.toList
  before_ne_nil : b.before ≠ []
  before : ∀ c ∈ b.before, isBound c
  after : ∀ c ∈ b.after, isBound c
  old : IsName isBound r.oldId.toList
  new : IsName isBound r.newId.toList

section Rules

variable {isBound : Char → Prop} (hcase : Caseless isBound)

theorem Bounds.Fits.opens {b : Bounds} {x y : List Char} (h : b.Fits x y)
    (hne : b.before ≠ []) (hb : ∀ c ∈ b.before, isBound c) : Opens isBound x := by
  rcases h.before with ⟨u, rfl⟩
  refine ⟨u ++ b.before.dropLast, b.before.getLast hne, ?_, hb _ (List.getLast_mem hne)⟩
  rw [List.append_assoc, List.dropLast_append_getLast hne]

theorem Bounds.Fits.closes {b : Bounds} {x y : List Char} (h : b.Fits x y)
    (ha : ∀ c ∈ b.after, isBound c) : Closes isBound y := by
  intro c v hy
  rcases h.after with ⟨s, hs⟩
  cases hafter : b.after with
  | nil =>
      rw [h.atEnd hafter] at hy
      cases hy
  | cons d rest =>
      rw [hafter, hy, List.cons_append, List.cons.injEq] at hs
      rw [← hs.1]
      exact ha d (by rw [hafter]; exact List.mem_cons_self)

/-- What is next to a gap does not depend on the names behind it. -/
theorem Bounds.Fits.of_name_behind {b : Bounds} {x w n' y : List Char}
    (h : b.Fits x (w ++ (n' ++ y))) (ha : ∀ c ∈ b.after, isBound c) (hn' : IsName isBound n')
    (n : List Char) : b.Fits x (w ++ (n ++ y)) := by
  have hafter := prefix_of_name b.after w n' y ha hn' h.after
  refine ⟨h.before, hafter.trans (List.prefix_append _ _), fun hnil => ?_⟩
  have hempty := h.atEnd hnil
  simp only [List.append_eq_nil_iff] at hempty
  exact absurd hempty.2.1 hn'.ne_nil

/-- Bounds are spelled as they are written. -/
theorem eq_of_spells_bounds (hcase : Caseless isBound) (anyCase : Bool) (word text : List Char)
    (hword : ∀ c ∈ word, isBound c) (h : Spells anyCase word text) : text = word := by
  induction h with
  | nil => rfl
  | cons hxc _ ih =>
      rename_i x c word text _
      have hall := List.forall_mem_cons.mp hword
      rw [ih hall.2, hcase x hall.1 c (sameFolded_of_agrees anyCase x c hxc)]

/-- A spelling of a name is a name. -/
theorem isName_of_spells (hcase : Caseless isBound) (anyCase : Bool) (name text : List Char)
    (hname : IsName isBound name) (h : Spells anyCase name text) : IsName isBound text := by
  constructor
  · rintro rfl
    exact hname.ne_nil (List.forall₂_nil_right_iff.mp h)
  · have hclear := hname.clear
    clear hname
    induction h with
    | nil => exact fun _ hc => absurd hc List.not_mem_nil
    | cons hxc _ ih =>
        rename_i x c name text _
        have hall := List.forall_mem_cons.mp hclear
        refine List.forall_mem_cons.mpr ⟨fun hc => hall.1 ?_, ih hall.2⟩
        -- A bound agrees only with itself, so the name would hold it too.
        rw [hcase c hc x (sameFolded_symm (sameFolded_of_agrees anyCase x c hxc))]
        exact hc

variable (r : Rule) (b : Bounds) (h : r.Bounded isBound b)
include hcase h

/-- What a rule finds is its name between its bounds. -/
theorem spells_text_iff (m : List Char) :
    Spells (!r.caseSensitive) (b.text r.oldId.toList) m ↔
      ∃ o, m = b.text o ∧ Spells (!r.caseSensitive) r.oldId.toList o := by
  unfold Bounds.text
  constructor
  · intro hm
    rcases (spells_append_iff _ _ _ _).mp hm with ⟨u, rest, rfl, hu, hrest⟩
    rcases (spells_append_iff _ _ _ _).mp hrest with ⟨o, v, rfl, ho, hv⟩
    rw [eq_of_spells_bounds hcase _ _ u h.before hu, eq_of_spells_bounds hcase _ _ v h.after hv]
    exact ⟨o, rfl, ho⟩
  · rintro ⟨o, rfl, ho⟩
    exact (spells_append_iff _ _ _ _).mpr ⟨_, _, rfl, spells_self _ _,
      (spells_append_iff _ _ _ _).mpr ⟨_, _, rfl, ho, spells_self _ _⟩⟩

/-- A rule matches a text if its name stands in it between its bounds. -/
theorem isMatch_iff (line : List Char) : r.isMatch line = true ↔
    ∃ x o y, line = x ++ (o ++ y) ∧ Spells (!r.caseSensitive) r.oldId.toList o ∧ b.Fits x y := by
  rw [Rule.isMatch, occursIn_of_finds r.matcher _ h.finds]
  constructor
  · intro hocc
    rcases Needle.exists_of_occursIn _ line hocc with ⟨u, rest, rfl, hat⟩
    rcases (Needle.occursAt_iff _ rest).mp hat with ⟨m, v, rfl, hm, hend⟩
    rcases (spells_text_iff hcase r b h m).mp hm with ⟨o, rfl, ho⟩
    refine ⟨u ++ b.before, o, b.after ++ v, ?_, ho, List.suffix_append _ _,
      List.prefix_append _ _, ?_⟩
    · simp only [Bounds.text, List.append_assoc]
    · intro hnil
      rw [hnil, hend (by rw [hnil]; rfl), List.append_nil]
  · rintro ⟨x, o, y, rfl, ho, hfits⟩
    rcases hfits.before with ⟨u, hu⟩
    rcases hfits.after with ⟨v, hv⟩
    have hline : x ++ (o ++ y) = u ++ (b.text o ++ v) := by
      rw [← hu, ← hv]
      simp only [Bounds.text, List.append_assoc]
    rw [hline]
    refine Needle.occursIn_of_occursAt _ _ _ ((Needle.occursAt_iff _ _).mpr
      ⟨b.text o, v, rfl, (spells_text_iff hcase r b h _).mpr ⟨o, rfl, ho⟩, ?_⟩)
    intro hend
    have hnil : b.after = [] := List.isEmpty_iff.mp hend
    have hy := hfits.atEnd hnil
    rw [← hv, hnil, List.nil_append] at hy
    exact hy

/-- One name in a text replaced by another: a rule that matches the result is
    about the new name, or it has matched before. -/
theorem isMatch_of_replaced (x n n' y : List Char) (hn' : IsName isBound n')
    (hx : Opens isBound x) (hy : Closes isBound y)
    (hmatch : r.isMatch (x ++ (n' ++ y)) = true) :
    (Spells (!r.caseSensitive) r.oldId.toList n' ∧ b.Fits x y) ∨
      r.isMatch (x ++ (n ++ y)) = true := by
  rcases (isMatch_iff hcase r b h _).mp hmatch with ⟨x', o, y', hline, ho, hfits⟩
  have hoName := isName_of_spells hcase _ _ o h.old ho
  rcases run_cases x n' y x' o y' hn' hoName hx
    (hfits.opens h.before_ne_nil h.before) hy (hfits.closes h.after) hline with
    ⟨rfl, rfl, rfl⟩ | ⟨w, rfl, rfl⟩ | ⟨w, rfl, rfl⟩
  · exact Or.inl ⟨ho, hfits⟩
  · -- The match is about a name behind, and its left bound lies behind too.
    have hbefore := suffix_of_name b.before x n' w h.before hn' hfits.before
    refine Or.inr ((isMatch_iff hcase r b h _).mpr
      ⟨x ++ (n ++ w), o, y', ?_, ho, ?_, hfits.after, hfits.atEnd⟩)
    · simp only [List.append_assoc]
    · rw [← List.append_assoc]
      exact hbefore.trans (List.suffix_append _ _)
  · -- The match is about a name in front, and so is its right bound.
    exact Or.inr ((isMatch_iff hcase r b h _).mpr ⟨x', o, w ++ (n ++ y),
      by simp only [List.append_assoc], ho, hfits.of_name_behind h.after hn' n⟩)

end Rules

/-- Boundaries that share characters: the end of the one on the right is the
    start of the one on the left. -/
theorem boundaryOverlaps_iff (after before : List Char) :
    boundaryOverlaps after before = true ↔
      ∃ u w, after = u ++ w ∧ w ≠ [] ∧ w <+: before := by
  induction after with
  | nil =>
      simp only [boundaryOverlaps, Bool.false_eq_true, false_iff, not_exists, not_and]
      intro u w h hne
      exact absurd (List.append_eq_nil_iff.mp h.symm).2 hne
  | cons c after ih =>
      rw [boundaryOverlaps, Bool.or_eq_true, List.isPrefixOf_iff_prefix, ih]
      constructor
      · rintro (h | ⟨u, w, rfl, hne, h⟩)
        · exact ⟨[], c :: after, rfl, List.cons_ne_nil _ _, h⟩
        · exact ⟨c :: u, w, rfl, hne, h⟩
      · rintro ⟨u, w, h, hne, hprefix⟩
        cases u with
        | nil =>
            rw [List.nil_append] at h
            rw [h]
            exact Or.inl hprefix
        | cons d u =>
            rw [List.cons_append, List.cons.injEq] at h
            exact Or.inr ⟨u, w, h.2, hne, hprefix⟩

end SchemaRename
