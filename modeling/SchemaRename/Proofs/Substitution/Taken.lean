import SchemaRename.Proofs.Substitution.Leftovers

/-!
# The Matches That a Rule Takes

What one rule makes of a line, field by field and match by match.

A search goes from left to right and takes every occurrence that it can. It
can take all of them but those whose left separator it has just used up, and
these directly follow one that it has taken. So the occurrences that a rule
takes are known from the occurrences of the line alone, by going through their
numbers: the first one is taken, and each later one unless its neighbour is.

Where an occurrence is taken, three fields are written: the identifier's own,
the end of the one before and the start of the one behind. Every field of the
result can be told from the same field of the line and the numbers taken.

## Main definitions

* `Rule.Takes`: The occurrences that a rule takes.
* `putStart`, `putEnd`: A field with a word written over one of its ends.
* `Rule.fieldAfter`: A field after some occurrences have been taken.
* `Rule.Searched`: Where a search stands, with the numbers it has taken.

## Theorems

* `takes_congr`: The same occurrences are taken from lines with the same
  occurrences.
* `startsIn_keep`, `startsIn_hit`: What starts behind the search stays there.
* `searched_keep`, `searched_hit`: One step of the search.
* `exists_taken`: A rule writes the fields of what it takes, and counts it.
* `apply_of_taken`: The same, for any list of what it takes.
-/

namespace SchemaRename

open SchemaRename.Pattern SchemaRename.Text SchemaRename.Line

/-- Whether a rule takes an occurrence: it does unless it has taken the one
    before. -/
def Rule.Takes (r : Rule) (e : Edges) (line : List Char) : Nat → Prop
  | 0 => r.OccursAt e line 0
  | k + 1 => r.OccursAt e line (k + 1) ∧ ¬ r.Takes e line k

theorem occursAt_of_takes (r : Rule) (e : Edges) (line : List Char) (k : Nat)
    (h : r.Takes e line k) : r.OccursAt e line k := by
  cases k with
  | zero => exact h
  | succ k => exact h.1

/-- What is taken depends on the occurrences of a line and on nothing else. -/
theorem takes_congr (r : Rule) (e : Edges) (line line' : List Char)
    (h : ∀ k, r.OccursAt e line' k ↔ r.OccursAt e line k) (k : Nat) :
    r.Takes e line' k ↔ r.Takes e line k := by
  induction k with
  | zero => exact h 0
  | succ k ih => simp only [Rule.Takes, h (k + 1), ih]

/-- A field with a word written over its start. -/
def putStart (word s : List Char) : List Char :=
  word ++ s.drop word.length

/-- A field with a word written over its end. -/
def putEnd (word s : List Char) : List Char :=
  s.take (s.length - word.length) ++ word

@[simp] theorem putStart_nil (s : List Char) : putStart [] s = s := rfl

@[simp] theorem putEnd_nil (s : List Char) : putEnd [] s = s := by
  unfold putEnd
  rw [List.length_nil, Nat.sub_zero, List.take_length, List.append_nil]

theorem putStart_append (word w y : List Char) (h : w.length = word.length) :
    putStart word (w ++ y) = word ++ y := by
  unfold putStart
  rw [← h, List.drop_left]

theorem putEnd_append (word x w : List Char) (h : w.length = word.length) :
    putEnd word (x ++ w) = x ++ word := by
  unfold putEnd
  rw [List.length_append, h, Nat.add_sub_cancel, List.take_left]

/-- A field of a line after some occurrences of a rule have been taken, from
    the same field before. -/
def Rule.fieldAfter (r : Rule) (e : Edges) (taken : List Nat) (i : Nat) (s : List Char) :
    List Char :=
  if i ∈ taken.map (· + 1) then r.newId.toList
  else
    putEnd (if i ∈ taken then e.word else [])
      (putStart (if i ∈ taken.map (· + 2) then e.right.word else []) s)

/-- Where a search of a rule stands on a line: which occurrences it has taken,
    how many, and what this has made of the line. -/
structure Rule.Searched (r : Rule) (e : Edges) (line : List Char) (taken : List Nat)
    (found : Nat) (done todo : List Char) : Prop where
  length_eq : taken.length = found
  nodup : taken.Nodup
  separators_eq : separators (done ++ todo) = separators line
  field_eq : ∀ i, field (done ++ todo) i = r.fieldAfter e taken i (field line i)
  sound : ∀ k ∈ taken, r.Takes e line k ∧ e.StartsIn done todo k
  complete : ∀ k, r.Takes e line k → e.StartsIn done todo k → k ∈ taken
  /-- The neighbour of what was taken has been passed over. -/
  next : ∀ k ∈ taken, r.OccursAt e line (k + 1) → e.StartsIn done todo (k + 1)
  /-- All else occurs as before. -/
  rest : ∀ k, k ∉ taken → (r.OccursAt e (done ++ todo) k ↔ r.OccursAt e line k)

theorem searched_start (r : Rule) (e : Edges) (line : List Char) :
    r.Searched e line [] 0 [] line := by
  refine ⟨rfl, List.nodup_nil, rfl, ?_, ?_, ?_, ?_, fun _ _ => Iff.rfl⟩
  · intro i
    unfold Rule.fieldAfter
    simp only [List.map_nil, List.not_mem_nil, if_false, putStart_nil, putEnd_nil, List.nil_append]
  · intro k hk
    exact absurd hk List.not_mem_nil
  · rintro k htakes (hlt | ⟨rfl, hshort⟩)
    · exact absurd hlt (Nat.not_lt_zero k)
    · exact absurd hshort (not_short_of_occursAt r e [] line rfl htakes)
  · intro k hk
    exact absurd hk List.not_mem_nil

/-- What starts behind the search still does when one more character is
    kept. -/
theorem startsIn_keep (e : Edges) (done : List Char) (c : Char) (todo : List Char) (i : Nat)
    (h : e.StartsIn done (c :: todo) i) : e.StartsIn (done ++ [c]) todo i := by
  unfold Edges.StartsIn at h ⊢
  cases hc : isSeparator c with
  | true =>
      rw [separators_append, separators_cons c [] hc, List.length_append, List.length_cons]
      omega
  | false =>
      have hfirst := length_field_cons c todo hc
      rw [separators_append_word done [c] (List.forall_mem_singleton.mpr hc)]
      omega

theorem length_separators_text (r : Rule) (e : Edges) (h : r.Renames e) (done : List Char) :
    (separators (done ++ r.replacement.toList)).length =
      (separators done).length + 1 + (separators e.right.chars).length := by
  rw [h.replaces, separators_append, separators_text e h.sound _ h.new, List.length_append,
    List.length_cons]
  omega

/-- And when a match is replaced, which itself starts behind it then. -/
theorem startsIn_hit (r : Rule) (e : Edges) (h : r.Renames e) (done todo todo' : List Char)
    (i : Nat) (hi : i = (separators done).length ∨ e.StartsIn done todo' i) :
    e.StartsIn (done ++ r.replacement.toList) todo i := by
  have hlen := length_separators_text r e h done
  unfold Edges.StartsIn at hi ⊢
  omega

/-- A match that the search is at does not start behind it. -/
theorem not_startsIn_of_spells (r : Rule) (e : Edges) (h : r.Renames e) (done m todo : List Char)
    (hm : Spells (!r.caseSensitive) (e.text r.oldId.toList) m) :
    ¬ e.StartsIn done (m ++ todo) (separators done).length := by
  rcases e.exists_parts h.sound _ _ m hm with ⟨w, o, t, rfl, hw, _, _⟩
  have hword := isWord_of_spells _ _ w (e.isPlain_word h.sound) hw
  have hleft := isSeparator_of_isAsciiSeparator _ (e.isSound_left h.sound)
  have hfield : field (w ++ e.left :: (o ++ t) ++ todo) 0 = w := by
    rw [List.append_assoc, List.cons_append, field_word_append w _ hword, if_pos rfl,
      (field_cons_sep e.left _ hleft).1, List.append_nil]
  have hlen := hw.length_eq
  unfold Edges.StartsIn
  rw [hfield]
  omega

theorem searched_keep (r : Rule) (e : Edges) (line : List Char) (taken : List Nat) (found : Nat)
    (done : List Char) (c : Char) (todo : List Char)
    (hmiss : (e.needle (!r.caseSensitive) r.oldId.toList).occursAt (c :: todo) = false)
    (h : r.Searched e line taken found done (c :: todo)) :
    r.Searched e line taken found (done ++ [c]) todo := by
  have hline : done ++ [c] ++ todo = done ++ c :: todo := by
    rw [List.append_assoc]
    rfl
  refine ⟨h.length_eq, h.nodup, by rw [hline]; exact h.separators_eq,
    by rw [hline]; exact h.field_eq, ?_, ?_, ?_, by rw [hline]; exact h.rest⟩
  · intro k hk
    have hsound := h.sound k hk
    exact ⟨hsound.1, startsIn_keep e done c todo k hsound.2⟩
  · intro k htakes hstarts
    -- What the search has not taken is still there, and it has missed nothing.
    by_cases hk : k ∈ taken
    · exact hk
    · have hocc := (h.rest k hk).mpr (occursAt_of_takes r e line k htakes)
      exact h.complete k htakes (startsIn_of_keep r e done c todo hmiss k hocc hstarts)
  · intro k hk hocc
    exact startsIn_keep e done c todo (k + 1) (h.next k hk hocc)

/-- One more occurrence, to the right of all others, taken: the fields are
    those of the hit. -/
theorem fieldAfter_cons (r : Rule) (e : Edges) (line cur line' : List Char) (taken : List Nat)
    (k : Nat) (hlt : ∀ j ∈ taken, j + 1 < k)
    (hcur : ∀ i, field cur i = r.fieldAfter e taken i (field line i))
    (hit : r.Hit e cur line' k) (i : Nat) :
    field line' i = r.fieldAfter e (k :: taken) i (field line i) := by
  have hi := hcur i
  -- What was taken before lies to the left, so at the hit only its own number counts.
  have hone : i ∈ taken.map (· + 1) → i < k := by
    intro hmem
    rcases List.mem_map.mp hmem with ⟨j, hj, rfl⟩
    exact hlt j hj
  have htwo : i ∈ taken.map (· + 2) → i < k + 1 := by
    intro hmem
    rcases List.mem_map.mp hmem with ⟨j, hj, rfl⟩
    have := hlt j hj
    omega
  have hmem : i ∈ taken → i + 1 < k := hlt i
  unfold Rule.fieldAfter at hi ⊢
  simp only [List.map_cons, List.mem_cons]
  by_cases hk1 : i = k + 1
  · rw [if_pos (Or.inl hk1), hk1, hit.new]
  · by_cases hk : i = k
    · have hno1 : i ∉ taken.map (· + 1) := fun h => absurd (hone h) (by omega)
      have hno : i ∉ taken := fun h => absurd (hmem h) (by omega)
      have hk2 : i ≠ k + 2 := by omega
      simp only [hno1, hno, if_false, putEnd_nil] at hi
      simp only [hk1, hno1, hk2, or_self, false_or, if_false]
      rw [if_pos (Or.inl hk), ← hi]
      rcases hit.left with ⟨x, w, hw, hleft, hleft'⟩
      rw [hk, hleft, hleft', putEnd_append _ _ _ hw.length_eq.symm]
    · by_cases hk2 : i = k + 2
      · have hno1 : i ∉ taken.map (· + 1) := fun h => absurd (hone h) (by omega)
        have hno2 : i ∉ taken.map (· + 2) := fun h => absurd (htwo h) (by omega)
        have hno : i ∉ taken := fun h => absurd (hmem h) (by omega)
        simp only [hno1, hno, hno2, if_false, putEnd_nil, putStart_nil] at hi
        simp only [hk1, hno1, hk, hno, or_self, if_false, putEnd_nil]
        rw [if_pos (Or.inl hk2), ← hi]
        rcases hit.right with ⟨w, y, hw, hline, hline'⟩
        rw [hk2, hline, hline', putStart_append _ _ _ hw.length_eq.symm]
      · rw [hit.frame i hk hk1 hk2, hi]
        simp only [hk, hk1, hk2, false_or]

theorem searched_hit (r : Rule) (e : Edges) (h : r.Renames e)
    (hnew : isBare r.newId.toList = true) (hold : isBare r.oldId.toList = true)
    (line : List Char) (taken : List Nat) (found : Nat) (done m todo : List Char)
    (hm : Spells (!r.caseSensitive) (e.text r.oldId.toList) m)
    (hend : e.right.isLineEnd = true → todo = [])
    (hs : r.Searched e line taken found done (m ++ todo)) :
    r.Searched e line ((separators done).length :: taken) (found + 1)
      (done ++ r.replacement.toList) todo := by
  have hit := hit_of_spells r e h done m todo hm hend
  have hocc := occursAt_of_spells r e h done m todo hm hend
  have hhere := not_startsIn_of_spells r e h done m todo hm
  have hlen := length_separators_text r e h done
  rw [← List.append_assoc done r.replacement.toList todo] at hit
  generalize hk : (separators done).length = k at *
  -- Everything taken so far starts to the left, and not even next to the match.
  have hnot : k ∉ taken := fun hmem => hhere (hs.sound k hmem).2
  have hline := (hs.rest k hnot).mp hocc
  have hlt : ∀ j ∈ taken, j + 1 < k := by
    intro j hj
    have hle : j ≤ k := by
      have := (hs.sound j hj).2
      unfold Edges.StartsIn at this
      omega
    have hne : j ≠ k := fun hjk => hnot (by rw [← hjk]; exact hj)
    have hnext : j + 1 ≠ k := by
      rintro rfl
      exact hhere (hs.next j hj hline)
    omega
  have htakes : r.Takes e line k := by
    cases hzero : k with
    | zero =>
        rw [hzero] at hline
        exact hline
    | succ j =>
        rw [hzero] at hline
        refine ⟨hline, fun hj => ?_⟩
        have hmem := hs.complete j hj (Or.inl (by omega))
        exact absurd (hlt j hmem) (by omega)
  -- On either side of the hit the same occurs, but for the match itself.
  have hsame : ∀ j, j ≠ k → (r.OccursAt e (done ++ r.replacement.toList ++ todo) j ↔
      r.OccursAt e (done ++ (m ++ todo)) j) := by
    intro j hj
    constructor
    · exact occursAt_of_touches r e e h.sound h hold _ _ k (hit.touches h hnew) j hj
    · exact occursAt_of_touches r e e h.sound h hold _ _ k (hit.touches_back h hold) j hj
  refine ⟨?_, ?_, hit.separators_eq.trans hs.separators_eq,
    fieldAfter_cons r e line _ _ taken k hlt hs.field_eq hit, ?_, ?_, ?_, ?_⟩
  · rw [List.length_cons, hs.length_eq]
  · exact List.nodup_cons.mpr ⟨hnot, hs.nodup⟩
  · intro j hj
    rcases List.mem_cons.mp hj with rfl | hj
    · exact ⟨htakes, startsIn_hit r e h done todo todo j (Or.inl hk.symm)⟩
    · have hsound := hs.sound j hj
      exact ⟨hsound.1, startsIn_hit r e h done todo _ j (Or.inr hsound.2)⟩
  · intro j hj hstarts
    by_cases hmem : j ∈ k :: taken
    · exact hmem
    · rw [List.mem_cons, not_or] at hmem
      have hoccj := (hsame j hmem.1).mpr
        ((hs.rest j hmem.2).mpr (occursAt_of_takes r e line j hj))
      have hle : j ≤ k + 1 := by
        rw [h.replaces] at hoccj hstarts
        rw [← hk]
        exact le_of_startsIn_text r e h done todo j hoccj hstarts
      by_cases hnext : j = k + 1
      · rw [hnext] at hj
        exact absurd htakes hj.2
      · exact absurd (hs.complete j hj (Or.inl (by omega))) hmem.2
  · intro j hj hoccj
    rcases List.mem_cons.mp hj with rfl | hj
    · -- A neighbour needs a separator, so the match does not end the line.
      refine Or.inl ?_
      have hpos : 0 < (separators e.right.chars).length := by
        cases hright : e.right with
        | lineEnd =>
            have hright' := hline.right
            rw [hright, RightEdge.HoldsAt, hoccj.left] at hright'
            cases hright'
        | sep c word =>
            have hc := isSeparator_of_isAsciiSeparator c (e.isSound_sep h.sound c word hright)
            rw [RightEdge.chars, separators_cons c word hc, List.length_cons]
            omega
        | pair c d =>
            have hc := isSeparator_of_isAsciiSeparator c (e.isSound_pair h.sound c d hright).1
            rw [RightEdge.chars, separators_cons c [d] hc, List.length_cons]
            omega
      omega
    · exact startsIn_hit r e h done todo _ (j + 1) (Or.inr (hs.next j hj hoccj))
  · intro j hj
    rw [List.mem_cons, not_or] at hj
    rw [hsame j hj.1, hs.rest j hj.2]

/-- A rule writes the fields of the occurrences that it takes, leaves the rest
    of the line as it is, and counts what it takes. -/
theorem exists_taken (r : Rule) (e : Edges) (h : r.Renames e)
    (hnew : isBare r.newId.toList = true) (hold : isBare r.oldId.toList = true)
    (line : List Char) :
    ∃ taken : List Nat, taken.Nodup ∧ (∀ k, k ∈ taken ↔ r.Takes e line k) ∧
      r.count line = taken.length ∧ separators (r.apply line) = separators line ∧
      ∀ i, field (r.apply line) i = r.fieldAfter e taken i (field line i) := by
  have hne : (e.needle (!r.caseSensitive) r.oldId.toList).chars ≠ [] := e.text_ne_nil _
  rcases Needle.search_invariant (e.needle (!r.caseSensitive) r.oldId.toList)
    r.replacement.toList hne
    (fun found done todo => ∃ taken, r.Searched e line taken found done todo)
    (fun found done c todo hmiss ⟨taken, hs⟩ =>
      ⟨taken, searched_keep r e line taken found done c todo hmiss hs⟩)
    (fun found done m todo hm hend ⟨taken, hs⟩ =>
      ⟨_, searched_hit r e h hnew hold line taken found done m todo hm hend hs⟩)
    line 0 [] ⟨[], searched_start r e line⟩ with ⟨taken, hs⟩
  rw [Nat.zero_add, List.nil_append, ← apply_eq_replace r e h] at hs
  have hsep := hs.separators_eq
  have hfield := hs.field_eq
  rw [List.append_nil] at hsep hfield
  refine ⟨taken, hs.nodup, ?_, ?_, hsep, hfield⟩
  · intro k
    refine ⟨fun hk => (hs.sound k hk).1, fun htakes => hs.complete k htakes (Or.inl ?_)⟩
    -- At the end of the search every occurrence starts in what is written.
    have hleft := (occursAt_of_takes r e line k htakes).left
    rw [hsep]
    exact (List.getElem?_eq_some_iff.mp hleft).1
  · rw [Rule.count, spans_of_finds r.matcher _ hne h.finds, hs.length_eq]

/-- The numbers that a rule takes determine its result, in whatever order they
    are listed. -/
theorem apply_of_taken (r : Rule) (e : Edges) (h : r.Renames e)
    (hnew : isBare r.newId.toList = true) (hold : isBare r.oldId.toList = true)
    (line : List Char) (taken : List Nat) (hnodup : taken.Nodup)
    (hmem : ∀ k, k ∈ taken ↔ r.Takes e line k) :
    r.count line = taken.length ∧ separators (r.apply line) = separators line ∧
      ∀ i, field (r.apply line) i = r.fieldAfter e taken i (field line i) := by
  rcases exists_taken r e h hnew hold line with ⟨taken', hnodup', hmem', hcount, hsep, hfield⟩
  have hsame : ∀ k, k ∈ taken' ↔ k ∈ taken := fun k => (hmem' k).trans (hmem k).symm
  refine ⟨?_, hsep, ?_⟩
  · rw [hcount, ((List.perm_ext_iff_of_nodup hnodup' hnodup).mpr hsame).length_eq]
  · intro i
    rw [hfield i]
    unfold Rule.fieldAfter
    simp only [List.mem_map, hsame]

end SchemaRename
