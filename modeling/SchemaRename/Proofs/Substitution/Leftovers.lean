import SchemaRename.Proofs.Substitution.WholeIdentifiers

/-!
# What a Rule Leaves Over

Occurrences only disappear, and those that a rule passes over stand alone.

A hit on one identifier could make another rule's match appear next to it:
by writing an identifier that the other rule looks for, or by putting a
`select` in capitals that the other rule compares exactly. With names that no
rule looks for, and that neither start with `FROM` nor end with `SELECT`, the
first cannot happen. The second does, but only on the edges of a field that
has just been renamed, where nothing occurs any more. So the occurrences of a
line, by number, only become fewer.

A rule misses an occurrence of its own only if the hit before has used up the
separator on its left. The identifier of that hit has been renamed. Hence a
missed occurrence has no neighbour on its left, and on a line where no
occurrence has one, a rule misses nothing.

## Main definitions

* `folded`, `isBare`: Letter case taken away, and names without keywords at
  their ends.
* `Rule.Spares`: Rules that write nothing another rule looks for.
* `Rule.Fades`: Lines between which a rule's occurrences only disappear.
* `Edges.Touches`: A hit, read in either direction.
* `Rule.Sparse`: Lines on which no occurrence of a rule follows another one.

## Theorems

* `occursAt_of_touches`: What occurs next to a hit, on either side of it.
* `fades_of_hit`: A hit creates no occurrences.
* `fades_apply`: Nor does a rule.
* `leftover_apply`: What a rule leaves over stands behind a renamed field.
* `sparse_apply`, `not_occursAt_apply`: What this means for one application of
  a rule, and for the next.
-/

namespace SchemaRename

open SchemaRename.Pattern SchemaRename.Text SchemaRename.Line

def folded (s : List Char) : List Char :=
  s.map fold

/-- A name that does not start with `FROM` and does not end with `SELECT`, in
    whatever case. -/
def isBare (id : List Char) : Bool :=
  !(folded fromWord).isPrefixOf (folded id) && !(folded selectWord).isSuffixOf (folded id)

theorem folded_append (s t : List Char) : folded (s ++ t) = folded s ++ folded t :=
  List.map_append

theorem folded_of_spells (anyCase : Bool) (word text : List Char) (h : Spells anyCase word text) :
    folded text = folded word := by
  induction h with
  | nil => rfl
  | cons hxc _ ih =>
      rename_i x c word text _
      have hfold := sameFolded_of_agrees anyCase x c hxc
      rw [sameFolded, beq_iff_eq] at hfold
      rw [folded, List.map_cons, ← hfold, ← folded, ih]
      rfl

/-- No spelling of a bare name starts with the keyword. -/
theorem ne_from_append_of_isBare (id token : List Char) (hbare : isBare id = true)
    (htoken : folded token = folded id) (anyCase : Bool) (w y : List Char)
    (hw : Spells anyCase fromWord w) : token ≠ w ++ y := by
  rintro rfl
  rw [isBare, Bool.and_eq_true, Bool.not_eq_true', ← htoken, folded_append,
    folded_of_spells anyCase fromWord w hw] at hbare
  exact absurd (List.isPrefixOf_iff_prefix.mpr (List.prefix_append _ _))
    (by rw [hbare.1]; exact Bool.false_ne_true)

theorem ne_append_select_of_isBare (id token : List Char) (hbare : isBare id = true)
    (htoken : folded token = folded id) (anyCase : Bool) (x w : List Char)
    (hw : Spells anyCase selectWord w) : token ≠ x ++ w := by
  rintro rfl
  rw [isBare, Bool.and_eq_true, Bool.not_eq_true', Bool.not_eq_true', ← htoken, folded_append,
    folded_of_spells anyCase selectWord w hw] at hbare
  exact absurd (List.isSuffixOf_iff_suffix.mpr (List.suffix_append _ _))
    (by rw [hbare.2]; exact Bool.false_ne_true)

/-- A rule that writes nothing another rule looks for: not its identifier, and
    no keyword at the end of one. -/
structure Rule.Spares (r q : Rule) : Prop where
  apart : folded r.newId.toList ≠ folded q.oldId.toList
  bareNew : isBare r.newId.toList = true
  bareOld : isBare q.oldId.toList = true

theorem not_isOld_of_spares (r q : Rule) (h : r.Spares q) : ¬ q.IsOld r.newId.toList := by
  intro hold
  exact h.apart (folded_of_spells _ _ _ hold)

/-- Lines between which the occurrences of a rule, and the fields that hold
    its identifier, only disappear. -/
structure Rule.Fades (q : Rule) (e : Edges) (line line' : List Char) : Prop where
  occursAt : ∀ i, q.OccursAt e line' i → q.OccursAt e line i
  isOld : ∀ i, q.IsOld (field line' i) → q.IsOld (field line i)

theorem fades_refl (q : Rule) (e : Edges) (line : List Char) : q.Fades e line line :=
  ⟨fun _ h => h, fun _ h => h⟩

theorem fades_trans (q : Rule) (e : Edges) (line line' line'' : List Char)
    (h : q.Fades e line line') (h' : q.Fades e line' line'') : q.Fades e line line'' :=
  ⟨fun i hi => h.occursAt i (h'.occursAt i hi), fun i hi => h.isOld i (h'.isOld i hi)⟩

/-- Two lines that differ around a field: in the second one it holds a bare
    name, and next to it the edges are spelled in different ways. A hit goes
    from one such line to another, and it can be read in both directions. -/
structure Edges.Touches (e : Edges) (line line' : List Char) (k : Nat) : Prop where
  separators_eq : separators line' = separators line
  bare : isBare (field line' (k + 1)) = true
  ne_nil : field line' (k + 1) ≠ []
  left : ∃ x w w', Spells true e.word w ∧ Spells true e.word w' ∧
    field line k = x ++ w ∧ field line' k = x ++ w'
  right : ∃ w w' y, Spells true e.right.word w ∧ Spells true e.right.word w' ∧
    field line (k + 2) = w ++ y ∧ field line' (k + 2) = w' ++ y
  frame : ∀ i, i ≠ k → i ≠ k + 1 → i ≠ k + 2 → field line' i = field line i

theorem isBare_of_isOld (r : Rule) (token : List Char) (hbare : isBare r.oldId.toList = true)
    (h : r.IsOld token) : isBare token = true := by
  unfold isBare at hbare ⊢
  rw [folded_of_spells _ _ _ h]
  exact hbare

theorem ne_nil_of_isOld (r : Rule) (token : List Char) (hold : isIdentifier r.oldId.toList = true)
    (h : r.IsOld token) : token ≠ [] := by
  rintro rfl
  exact ne_nil_of_isIdentifier _ hold (List.forall₂_nil_right_iff.mp h)

/-- A hit, read forwards. -/
theorem Rule.Hit.touches {r : Rule} {e : Edges} {line line' : List Char} {k : Nat}
    (hit : r.Hit e line line' k) (h : r.Renames e) (hbare : isBare r.newId.toList = true) :
    e.Touches line line' k := by
  rcases hit.left with ⟨x, w, hw, hleft, hleft'⟩
  rcases hit.right with ⟨w', y, hw', hright, hright'⟩
  refine ⟨hit.separators_eq, ?_, ?_, ⟨x, w, _, hw, spells_self true _, hleft, hleft'⟩,
    ⟨w', _, y, hw', spells_self true _, hright, hright'⟩, hit.frame⟩
  · rw [hit.new]
    exact hbare
  · rw [hit.new]
    exact ne_nil_of_isIdentifier _ h.new

/-- A hit, read backwards. -/
theorem Rule.Hit.touches_back {r : Rule} {e : Edges} {line line' : List Char} {k : Nat}
    (hit : r.Hit e line line' k) (h : r.Renames e) (hbare : isBare r.oldId.toList = true) :
    e.Touches line' line k := by
  rcases hit.left with ⟨x, w, hw, hleft, hleft'⟩
  rcases hit.right with ⟨w', y, hw', hright, hright'⟩
  exact ⟨hit.separators_eq.symm, isBare_of_isOld r _ hbare hit.old,
    ne_nil_of_isOld r _ h.old hit.old, ⟨x, _, w, spells_self true _, hw, hleft', hleft⟩,
    ⟨_, w', y, spells_self true _, hw', hright', hright⟩,
    fun i hi hi1 hi2 => (hit.frame i hi hi1 hi2).symm⟩

/-- A field that holds an identifier and is not the middle one is the same on
    both lines: a keyword at the end of a field keeps it from being one. -/
theorem field_eq_of_isOld (q : Rule) (e : Edges) (hsound : e.isSound = true)
    (hbare : isBare q.oldId.toList = true) (line line' : List Char) (k : Nat)
    (htouches : e.Touches line line' k) (i : Nat) (hne : i ≠ k + 1)
    (hold : q.IsOld (field line' i)) : field line i = field line' i := by
  have htoken := isBare_of_isOld q _ hbare hold
  by_cases hk : i = k
  · rcases htouches.left with ⟨x, w, w', hw, hw', hline, hline'⟩
    rcases e.isSound_word hsound with hword | hword
    · rw [hword] at hw hw'
      rw [hk, hline, hline', List.forall₂_nil_left_iff.mp hw, List.forall₂_nil_left_iff.mp hw']
    · rw [hword] at hw'
      rw [← hk] at hline'
      exact absurd hline' (ne_append_select_of_isBare _ _ htoken rfl true x w' hw')
  · by_cases hk2 : i = k + 2
    · rcases htouches.right with ⟨w, w', y, hw, hw', hline, hline'⟩
      rcases e.isSound_right_word hsound with hword | ⟨hword, _⟩
      · rw [hword] at hw hw'
        rw [hk2, hline, hline', List.forall₂_nil_left_iff.mp hw, List.forall₂_nil_left_iff.mp hw']
      · rw [hword] at hw'
        rw [← hk2] at hline'
        exact absurd hline' (ne_from_append_of_isBare _ _ htoken rfl true w' y hw')
    · exact (htouches.frame i hk hne hk2).symm

theorem exists_agrees_of_mem (anyCase : Bool) (word text : List Char) (h : Spells anyCase word text)
    (c : Char) (hc : c ∈ text) : ∃ x ∈ word, agrees anyCase x c = true := by
  induction h with
  | nil => exact absurd hc List.not_mem_nil
  | cons hxc _ ih =>
      rcases List.mem_cons.mp hc with rfl | hc
      · exact ⟨_, List.mem_cons_self, hxc⟩
      · rcases ih hc with ⟨x, hx, hagrees⟩
        exact ⟨x, List.mem_cons_of_mem _ hx, hagrees⟩

theorem sameFolded_of_mem_from (c : Char) (h : c ∈ fromWord) : sameFolded 'S' c = false := by
  have hall : fromWord.all (fun c => sameFolded 'S' c == false) = true := by decide
  exact beq_iff_eq.mp (List.all_eq_true.mp hall c h)

/-- A `FROM` at the start of a field and a `SELECT` at its end do not reach into
    each other: no letter of the one starts the other. -/
theorem exists_between (anyCase anyCase' : Bool) (w y x v : List Char)
    (hw : Spells anyCase fromWord w) (hv : Spells anyCase' selectWord v) (h : w ++ y = x ++ v) :
    ∃ z, y = z ++ v ∧ x = w ++ z := by
  rcases List.append_eq_append_iff.mp h with ⟨z, hx, hy⟩ | ⟨z, hwz, hvz⟩
  · exact ⟨z, hy, hx⟩
  · cases z with
    | nil => exact ⟨[], hvz.symm, by rw [hwz, List.append_nil, List.append_nil]⟩
    | cons c z =>
        have hmem : c ∈ w := by
          rw [hwz]
          exact List.mem_append_right x List.mem_cons_self
        rcases exists_agrees_of_mem anyCase fromWord w hw c hmem with ⟨f, hf, hagrees⟩
        rw [hvz, selectWord, List.cons_append, Spells, List.forall₂_cons] at hv
        -- Then a letter of `FROM` would be an `S` in some spelling.
        have hS := sameFolded_of_agrees anyCase' 'S' c hv.1
        have hF := sameFolded_of_agrees anyCase f c hagrees
        have hSF := sameFolded_of_mem_from f hf
        rw [sameFolded, beq_iff_eq] at hS hF
        rw [sameFolded, hS, hF, beq_self_eq_true] at hSF
        exact absurd hSF (by decide)

/-- A word that ends a field of the second line ends it on the first line too,
    unless it is the left edge that differs. -/
theorem left_of_touches (e : Edges) (hsound : e.isSound = true) (line line' : List Char) (k : Nat)
    (htouches : e.Touches line line' k) (i : Nat) (hi : i ≠ k)
    (anyCase : Bool) (word : List Char) (hword : word = [] ∨ word = selectWord)
    (h : ∃ x w, Spells anyCase word w ∧ field line' i = x ++ w) :
    ∃ x w, Spells anyCase word w ∧ field line i = x ++ w := by
  rcases hword with hword | hword
  · rw [hword]
    exact ⟨field line i, [], List.Forall₂.nil, (List.append_nil _).symm⟩
  · rcases h with ⟨x, w, hw, hline'⟩
    rw [hword] at hw ⊢
    by_cases hk1 : i = k + 1
    · rw [hk1] at hline'
      exact absurd hline' (ne_append_select_of_isBare _ _ htouches.bare rfl anyCase x w hw)
    · by_cases hk2 : i = k + 2
      · rcases htouches.right with ⟨u, u', y, hu, hu', hright, hright'⟩
        rw [hk2, hright'] at hline'
        rcases e.isSound_right_word hsound with hfrom | ⟨hfrom, _⟩
        · rw [hfrom] at hu hu'
          rw [List.forall₂_nil_left_iff.mp hu'] at hline'
          rw [hk2, hright, List.forall₂_nil_left_iff.mp hu]
          exact ⟨x, w, hw, hline'⟩
        · rw [hfrom] at hu'
          -- The lines differ at the start of this field, and not at its end.
          rcases exists_between true anyCase u' y x w hu' hw hline' with ⟨z, rfl, _⟩
          exact ⟨u ++ z, w, hw, by rw [hk2, hright, List.append_assoc]⟩
      · rw [htouches.frame i hi hk1 hk2] at hline'
        exact ⟨x, w, hw, hline'⟩

/-- A right edge that holds on the second line holds on the first line too,
    unless it is the one that differs. -/
theorem right_of_touches (e e' : Edges) (hsound : e.isSound = true) (hsound' : e'.isSound = true)
    (line line' : List Char) (k : Nat) (htouches : e.Touches line line' k)
    (i : Nat) (hi : i ≠ k) (anyCase : Bool) (hright : e'.right.HoldsAt anyCase line' (i + 1)) :
    e'.right.HoldsAt anyCase line (i + 1) := by
  have hwords := e'.isSound_right_word hsound'
  cases hedge : e'.right with
  | lineEnd =>
      rw [hedge, RightEdge.HoldsAt, htouches.separators_eq] at hright
      exact hright
  | sep c word =>
      rw [hedge] at hright hwords
      rcases hright with ⟨hc, w, y, hw, hline'⟩
      rw [htouches.separators_eq] at hc
      refine ⟨hc, ?_⟩
      rcases hwords with (hword : word = []) | ⟨(hword : word = fromWord), _⟩
      · rw [hword]
        exact ⟨[], field line (i + 1 + 1), List.Forall₂.nil, rfl⟩
      · rw [hword] at hw ⊢
        by_cases hk1 : i + 1 + 1 = k + 1
        · rw [hk1] at hline'
          exact absurd hline' (ne_from_append_of_isBare _ _ htouches.bare rfl anyCase w y hw)
        · by_cases hk : i + 1 + 1 = k
          · rcases htouches.left with ⟨x, u, u', hu, hu', hleft, hleft'⟩
            rw [hk, hleft'] at hline'
            rw [hk, hleft]
            rcases e.isSound_word hsound with hselect | hselect
            · rw [hselect] at hu hu'
              rw [List.forall₂_nil_left_iff.mp hu'] at hline'
              rw [List.forall₂_nil_left_iff.mp hu]
              exact ⟨w, y, hw, hline'⟩
            · rw [hselect] at hu'
              -- Here they differ at the end, and not at the start.
              rcases exists_between anyCase true w y x u' hw hu' hline'.symm with ⟨z, _, rfl⟩
              exact ⟨w, z ++ u, hw, List.append_assoc w z u⟩
          · rw [htouches.frame _ hk hk1 (by omega)] at hline'
            exact ⟨w, y, hw, hline'⟩
  | pair c d =>
      rw [hedge] at hright
      rcases hright with ⟨hc, hempty, hd⟩
      rw [htouches.separators_eq] at hc hd
      refine ⟨hc, ?_, hd⟩
      by_cases hk1 : i + 1 + 1 = k + 1
      · rw [hk1] at hempty
        exact absurd hempty htouches.ne_nil
      · by_cases hk : i + 1 + 1 = k
        · rcases htouches.left with ⟨x, u, u', hu, hu', hleft, hleft'⟩
          rw [hk, hleft', List.append_eq_nil_iff] at hempty
          rw [hempty.2] at hu'
          rw [List.forall₂_nil_right_iff.mp hu'] at hu
          rw [hk, hleft, hempty.1, List.forall₂_nil_left_iff.mp hu]
          rfl
        · rw [htouches.frame _ hk hk1 (by omega)] at hempty
          exact hempty

/-- An occurrence on the second line that is not in the middle occurs on the
    first line too. -/
theorem occursAt_of_touches (q : Rule) (e e' : Edges) (hsound : e.isSound = true)
    (h' : q.Renames e') (hbare : isBare q.oldId.toList = true) (line line' : List Char) (k : Nat)
    (htouches : e.Touches line line' k) (i : Nat) (hi : i ≠ k) (hocc : q.OccursAt e' line' i) :
    q.OccursAt e' line i := by
  refine ⟨?_, ?_, ?_, ?_⟩
  · rw [← htouches.separators_eq]
    exact hocc.left
  · exact left_of_touches e hsound line line' k htouches i hi _ e'.word
      (e'.isSound_word h'.sound) hocc.word
  · rw [field_eq_of_isOld q e hsound hbare line line' k htouches (i + 1) (by omega) hocc.old]
    exact hocc.old
  · exact right_of_touches e e' hsound h'.sound line line' k htouches i hi _ hocc.right

/-- A hit creates no occurrences. -/
theorem fades_of_hit (r q : Rule) (e e' : Edges) (h : r.Renames e) (h' : q.Renames e')
    (hspares : r.Spares q) (line line' : List Char) (k : Nat) (hit : r.Hit e line line' k) :
    q.Fades e' line line' := by
  have htouches := hit.touches h hspares.bareNew
  -- The renamed field holds a new identifier, which nobody looks for.
  have hne : ∀ i, q.IsOld (field line' i) → i ≠ k + 1 := by
    rintro i hold rfl
    rw [hit.new] at hold
    exact not_isOld_of_spares r q hspares hold
  constructor
  · intro i hocc
    have hi : i ≠ k := fun hik => hne (i + 1) hocc.old (by rw [hik])
    exact occursAt_of_touches q e e' h.sound h' hspares.bareOld line line' k htouches i hi hocc
  · intro i hold
    rw [field_eq_of_isOld q e h.sound hspares.bareOld line line' k htouches i (hne i hold) hold]
    exact hold

theorem fades_apply (r q : Rule) (e e' : Edges) (h : r.Renames e) (h' : q.Renames e')
    (hspares : r.Spares q) (line : List Char) : q.Fades e' line (r.apply line) :=
  rel_apply r e h (q.Fades e') (fades_refl q e') (fades_trans q e')
    (fades_of_hit r q e e' h h' hspares) line

/-- Occurrences that start in the part of a line that a search has already
    written: by number, or because too little is left of the field that has
    to hold the left edge. -/
def Edges.StartsIn (e : Edges) (done todo : List Char) (i : Nat) : Prop :=
  i < (separators done).length ∨
    (i = (separators done).length ∧ (field todo 0).length < e.word.length)

/-- Where the search of a rule stands: what it has passed over on the way
    follows an identifier that it has renamed. -/
structure Rule.Scanned (r : Rule) (e : Edges) (line done todo : List Char) : Prop where
  fades : r.Fades e line (done ++ todo)
  leftover : ∀ i, r.OccursAt e (done ++ todo) i → e.StartsIn done todo i →
    r.IsOld (field line i) ∧ ¬ r.IsOld (field (done ++ todo) i)

theorem word_length_le_of_occursAt (r : Rule) (e : Edges) (line : List Char) (i : Nat)
    (h : r.OccursAt e line i) : e.word.length ≤ (field line i).length := by
  rcases h.word with ⟨x, w, hw, hline⟩
  rw [hline, List.length_append, List.Forall₂.length_eq hw]
  omega

/-- Directly behind a separator the left edge has all its field before it. -/
theorem not_short_of_occursAt (r : Rule) (e : Edges) (done todo : List Char)
    (hlast : field done (separators done).length = [])
    (h : r.OccursAt e (done ++ todo) (separators done).length) :
    ¬ (field todo 0).length < e.word.length := by
  have hle := word_length_le_of_occursAt r e _ _ h
  rw [field_append, hlast, List.nil_append] at hle
  omega

theorem scanned_start (r : Rule) (e : Edges) (line : List Char) : r.Scanned e line [] line := by
  refine ⟨fades_refl r e line, ?_⟩
  rintro i hocc (hlt | ⟨rfl, hshort⟩)
  · exact absurd hlt (Nat.not_lt_zero i)
  · exact absurd hshort (not_short_of_occursAt r e [] line rfl hocc)

/-- An occurrence that has just come to start behind the search, because of one
    character kept, would have been a match. -/
theorem startsIn_of_keep (r : Rule) (e : Edges) (done : List Char) (c : Char) (todo : List Char)
    (hmiss : (e.needle (!r.caseSensitive) r.oldId.toList).occursAt (c :: todo) = false) (i : Nat)
    (hocc : r.OccursAt e (done ++ c :: todo) i) (hstarts : e.StartsIn (done ++ [c]) todo i) :
    e.StartsIn done (c :: todo) i := by
  have hline : done ++ [c] ++ todo = done ++ c :: todo := by
    rw [List.append_assoc]
    rfl
  -- At the place of the search itself, the left edge would fit exactly.
  have hfit : i = (separators done).length → (field (c :: todo) 0).length ≠ e.word.length := by
    rintro rfl heq
    exact absurd (needle_occursAt r e done (c :: todo) hocc heq)
      (by rw [hmiss]; exact Bool.false_ne_true)
  cases hc : isSeparator c with
  | true =>
      have hlen : (separators (done ++ [c])).length = (separators done).length + 1 := by
        rw [separators_append, separators_cons c [] hc, List.length_append]
        rfl
      have hlast : field (done ++ [c]) (separators (done ++ [c])).length = [] := by
        rw [hlen]
        exact field_right done c [] hc 0
      rcases hstarts with hlt | ⟨rfl, hshort⟩
      · by_cases hi : i < (separators done).length
        · exact Or.inl hi
        · have hfit := hfit (by omega)
          rw [(field_cons_sep c todo hc).1, List.length_nil] at hfit
          refine Or.inr ⟨by omega, ?_⟩
          rw [(field_cons_sep c todo hc).1, List.length_nil]
          omega
      · rw [← hline] at hocc
        exact absurd hshort (not_short_of_occursAt r e _ todo hlast hocc)
  | false =>
      have hword : IsWord [c] := List.forall_mem_singleton.mpr hc
      have hfirst := length_field_cons c todo hc
      rw [Edges.StartsIn, separators_append_word done [c] hword] at hstarts
      rcases hstarts with hlt | ⟨hi, hshort⟩
      · exact Or.inl hlt
      · have hfit := hfit hi
        exact Or.inr ⟨hi, by omega⟩

theorem scanned_keep (r : Rule) (e : Edges) (line done : List Char) (c : Char) (todo : List Char)
    (hmiss : (e.needle (!r.caseSensitive) r.oldId.toList).occursAt (c :: todo) = false)
    (h : r.Scanned e line done (c :: todo)) : r.Scanned e line (done ++ [c]) todo := by
  have hline : done ++ [c] ++ todo = done ++ c :: todo := by
    rw [List.append_assoc]
    rfl
  refine ⟨by rw [hline]; exact h.fades, ?_⟩
  intro i hocc hstarts
  rw [hline] at hocc ⊢
  exact h.leftover i hocc (startsIn_of_keep r e done c todo hmiss i hocc hstarts)

theorem separators_text (e : Edges) (hsound : e.isSound = true) (id : List Char)
    (hid : isIdentifier id = true) :
    separators (e.text id) = e.left :: separators e.right.chars := by
  have hword := isWord_of_spells true _ _ (e.isPlain_word hsound) (spells_self true e.word)
  have hidWord := isWord_of_spells true _ _ (isPlainChar_of_isIdentifier id hid)
    (spells_self true id)
  rw [Edges.text, separators_word_append _ _ hword,
    separators_cons _ _ (isSeparator_of_isAsciiSeparator _ (e.isSound_left hsound)),
    separators_word_append _ _ hidWord]

/-- Behind a replacement, only the next field can hold an occurrence that
    starts inside of it. A word on the right means that none is asked for on
    the left, and a pair of separators does not end with the left one. -/
theorem le_of_startsIn_text (r : Rule) (e : Edges) (h : r.Renames e) (done todo : List Char)
    (i : Nat) (hocc : r.OccursAt e (done ++ e.text r.newId.toList ++ todo) i)
    (hstarts : e.StartsIn (done ++ e.text r.newId.toList) todo i) :
    i ≤ (separators done).length + 1 := by
  have hseps : separators (done ++ e.text r.newId.toList) =
      separators done ++ e.left :: separators e.right.chars := by
    rw [separators_append, separators_text e h.sound _ h.new]
  have hlen : (separators (done ++ e.text r.newId.toList)).length =
      (separators done).length + 1 + (separators e.right.chars).length := by
    rw [hseps, List.length_append, List.length_cons]
    omega
  cases hright : e.right with
  | lineEnd =>
      rw [hright] at hlen
      have hnone : (separators RightEdge.lineEnd.chars).length = 0 := rfl
      rcases hstarts with hlt | ⟨hi, _⟩
      · omega
      · omega
  | sep c word =>
      have hc := isSeparator_of_isAsciiSeparator c (e.isSound_sep h.sound c word hright)
      have hplain := e.isPlain_right_word h.sound
      rw [hright] at hplain
      have hword := isWord_of_spells true word word hplain (spells_self true word)
      have hone : (separators e.right.chars).length = 1 := by
        rw [hright, RightEdge.chars, separators_cons c word hc,
          (separators_eq_nil_iff word).mpr hword]
        rfl
      rcases hstarts with hlt | ⟨hi, hshort⟩
      · omega
      · -- The left edge is not empty, so there is no word on the right, and
        -- the replacement ends with a separator.
        have hnil : word = [] := by
          have := e.isSound_right_word h.sound
          rw [hright] at this
          rcases this with hnil | ⟨_, hempty⟩
          · exact hnil
          · rw [hempty] at hshort
            exact absurd hshort (Nat.not_lt_zero _)
        have hlast : field (done ++ e.text r.newId.toList)
            (separators (done ++ e.text r.newId.toList)).length = [] := by
          have htext : done ++ e.text r.newId.toList =
              (done ++ (e.word ++ e.left :: r.newId.toList)) ++ c :: [] := by
            rw [Edges.text, hright, hnil, RightEdge.chars]
            simp only [List.append_assoc, List.cons_append]
          rw [htext, separators_append _ [c], separators_cons c [] hc, List.length_append]
          exact field_right _ c [] hc 0
        rw [hi] at hocc
        exact absurd hshort (not_short_of_occursAt r e _ todo hlast hocc)
  | pair c d =>
      have hpair := e.isSound_pair h.sound c d hright
      have hchars : separators e.right.chars = [c, d] := by
        rw [hright, RightEdge.chars,
          separators_cons c _ (isSeparator_of_isAsciiSeparator c hpair.1),
          separators_cons d _ (isSeparator_of_isAsciiSeparator d hpair.2.1)]
        rfl
      rw [hchars, List.length_cons, List.length_singleton] at hlen
      rcases hstarts with hlt | ⟨_, hshort⟩
      · by_cases hi : i = (separators done).length + 2
        · -- Here stands the second separator of the pair.
          have hleft := hocc.left
          rw [separators_append _ todo, hseps, hchars, hi, List.append_assoc,
            List.getElem?_append_right (by omega), Nat.add_sub_cancel_left] at hleft
          exact absurd (Option.some.inj hleft) hpair.2.2.1
        · omega
      · rw [hpair.2.2.2] at hshort
        exact absurd hshort (Nat.not_lt_zero _)

/-- One match replaced: the occurrence it may have cut off follows the new
    identifier. -/
theorem scanned_hit (r : Rule) (e : Edges) (h : r.Renames e) (hspares : r.Spares r)
    (line done m todo : List Char)
    (hm : Spells (!r.caseSensitive) (e.text r.oldId.toList) m)
    (hend : e.right.isLineEnd = true → todo = [])
    (hscanned : r.Scanned e line done (m ++ todo)) :
    r.Scanned e line (done ++ r.replacement.toList) todo := by
  have hit := hit_of_spells r e h done m todo hm hend
  have hfades := fades_of_hit r r e e h h hspares _ _ _ hit
  rw [← List.append_assoc done r.replacement.toList todo] at hit hfades
  refine ⟨fades_trans r e line _ _ hscanned.fades hfades, ?_⟩
  intro i hocc hstarts
  have hnew : ¬ r.IsOld (field (done ++ r.replacement.toList ++ todo)
      ((separators done).length + 1)) := by
    rw [hit.new]
    exact not_isOld_of_spares r r hspares
  have hle : i ≤ (separators done).length + 1 := by
    rw [h.replaces] at hocc hstarts
    exact le_of_startsIn_text r e h done todo i hocc hstarts
  by_cases hnext : i = (separators done).length + 1
  · rw [hnext]
    exact ⟨hscanned.fades.isOld _ hit.old, hnew⟩
  · have hne : i ≠ (separators done).length := by
      rintro rfl
      exact hnew hocc.old
    -- Everything further to the left was passed over before.
    have hbefore := hscanned.leftover i (hfades.occursAt i hocc) (Or.inl (by omega))
    exact ⟨hbefore.1, fun hold => hbefore.2 (hfades.isOld i hold)⟩

/-- What a rule leaves over stands behind a field that held its identifier and
    does so no longer. -/
theorem leftover_apply (r : Rule) (e : Edges) (h : r.Renames e) (hspares : r.Spares r)
    (line : List Char) (i : Nat) (hocc : r.OccursAt e (r.apply line) i) :
    r.IsOld (field line i) ∧ ¬ r.IsOld (field (r.apply line) i) := by
  have hscanned := Needle.replace_invariant (e.needle (!r.caseSensitive) r.oldId.toList)
    r.replacement.toList (e.text_ne_nil _) (r.Scanned e line)
    (fun done c todo hmiss hinv => scanned_keep r e line done c todo hmiss hinv)
    (fun done m todo hm hend hinv => scanned_hit r e h hspares line done m todo hm hend hinv)
    line [] (scanned_start r e line)
  rw [List.nil_append, ← apply_eq_replace r e h] at hscanned
  -- At the end of the search every occurrence starts in what is written.
  have hlt : i < (separators (r.apply line)).length :=
    (List.getElem?_eq_some_iff.mp hocc.left).1
  have hleft := hscanned.leftover i
  rw [List.append_nil] at hleft
  exact hleft hocc (Or.inl hlt)

/-- A line on which no occurrence of a rule directly follows its
    identifier. -/
def Rule.Sparse (r : Rule) (e : Edges) (line : List Char) : Prop :=
  ∀ i, r.OccursAt e line i → ¬ r.IsOld (field line i)

theorem sparse_apply (r : Rule) (e : Edges) (h : r.Renames e) (hspares : r.Spares r)
    (line : List Char) : r.Sparse e (r.apply line) :=
  fun i hocc => (leftover_apply r e h hspares line i hocc).2

/-- On a sparse line a rule leaves nothing over. -/
theorem not_occursAt_apply (r : Rule) (e : Edges) (h : r.Renames e) (hspares : r.Spares r)
    (line : List Char) (hsparse : r.Sparse e line) (i : Nat) : ¬ r.OccursAt e (r.apply line) i := by
  intro hocc
  have hocc' := (fades_apply r r e e h h hspares line).occursAt i hocc
  exact hsparse i hocc' (leftover_apply r e h hspares line i hocc).1

theorem sparse_of_fades (r : Rule) (e : Edges) (line line' : List Char)
    (hfades : r.Fades e line line') (hsparse : r.Sparse e line) : r.Sparse e line' :=
  fun i hocc hold => hsparse i (hfades.occursAt i hocc) (hfades.isOld i hold)

end SchemaRename
