import SchemaRename.Proofs.Pattern.Escaped

/-!
# Where Matches End

What matching does to a cursor, whatever the pattern is.

There is one way to move a cursor, and that is over the next character.
Sequences, branches and repetitions put such moves together. They drop cursors
and bring them into order, but they make none of their own. So what a move over
a character keeps, a whole match keeps, and every fact about the ends of
matches is a fact about one move.

A repetition looks as if it could do more, because it keeps a record of where
it has been. But the record only decides which cursors are left out. All that
goes into the list of ends is the cursor a round started from, or what lies
beyond it.

## Main definitions

* `Explored.All`: All ends that were collected have a property.
* `Cursor.Reaches`: A cursor lies some characters behind another one.

## Theorems

* `collect_keeps`: One round of a repetition, and what lies beyond it.
* `explore_keeps`, `exploreUpTo_keeps`, `exactEnds_keeps`: Further rounds.
* `roundsEnds_keeps`: Repetitions.
* `endsFrom_keeps`: What a move keeps, a match keeps.
* `reaches_of_mem_ends`: A match ends in the text it was started in.
-/

namespace SchemaRename.Pattern

theorem mem_of_mem_keepFirst {c : Cursor} (cs : List Cursor) : ∀ (met : Nat),
    c ∈ keepFirst met cs → c ∈ cs := by
  induction cs with
  | nil => intro met h; exact h
  | cons d cs ih =>
      intro met h
      rw [keepFirst] at h
      split at h
      · exact List.mem_cons_of_mem d (ih met h)
      · rcases List.mem_cons.mp h with rfl | h
        · exact List.mem_cons_self
        · exact List.mem_cons_of_mem d (ih _ h)

theorem mem_of_mem_distinct {c : Cursor} (cs : List Cursor) (h : c ∈ distinct cs) : c ∈ cs := by
  unfold distinct at h
  split at h
  · exact h
  · exact h
  · exact mem_of_mem_keepFirst _ 0 h

/-- All ends that were collected have a property. -/
def Explored.All (P : Cursor → Prop) (found : Explored) : Prop :=
  ∀ d ∈ found.ends, P d

section Rounds

variable {P : Cursor → Prop}

theorem Explored.All.cons {found : Explored} (h : found.All P) {c : Cursor} (hc : P c) :
    Explored.All P { found with ends := c :: found.ends } :=
  List.forall_mem_cons.mpr ⟨hc, h⟩

variable {step : Cursor → List Cursor} (hstep : ∀ c, P c → ∀ d ∈ step c, P d)
include hstep

/-- One round from a cursor, and whatever is collected beyond it. The cursor
    itself is an end, in front of the others or behind them. -/
theorem collect_keeps (greedy : Bool) (further : Explored → Cursor → Explored) (c : Cursor)
    (hc : P c) (hfurther : ∀ found, found.All P → ∀ next, P next → (further found next).All P)
    (found : Explored) (hfound : found.All P) :
    Explored.All P
      (let opened := if greedy then found else { found with ends := c :: found.ends }
       let beyond := (step c).foldl further opened
       if greedy then { beyond with ends := c :: beyond.ends } else beyond) := by
  -- Each step of the fold goes on from a cursor that one round has led to.
  have hfold : ∀ opened : Explored, opened.All P → ((step c).foldl further opened).All P := by
    intro opened hopened
    exact List.foldlRecOn (step c) further hopened
      fun found hfound next hnext => hfurther found hfound next (hstep c hc next hnext)
  cases greedy with
  | true => exact (hfold found hfound).cons hc
  | false => exact hfold _ (hfound.cons hc)

theorem explore_keeps (greedy : Bool) (fuel : Nat) : ∀ (c : Cursor) (found : Explored),
    P c → found.All P → (explore step greedy fuel c found).All P := by
  induction fuel with
  | zero => intro c found hc hfound; exact hfound.cons hc
  | succ fuel ih =>
      intro c found hc hfound
      rw [explore]
      split
      · exact hfound
      · refine collect_keeps hstep greedy _ c hc ?_ _ hfound
        intro found hfound next hnext
        split
        -- An empty round is the last one.
        · exact hfound.cons hc
        · exact ih next found hnext hfound

theorem exploreUpTo_keeps (greedy : Bool) (width n : Nat) : ∀ (c : Cursor) (found : Explored),
    P c → found.All P → (exploreUpTo step greedy width n c found).All P := by
  induction n with
  | zero => intro c found hc hfound; exact hfound.cons hc
  | succ n ih =>
      intro c found hc hfound
      rw [exploreUpTo]
      split
      · exact hfound
      · exact collect_keeps hstep greedy _ c hc
          (fun found hfound next hnext => ih next found hnext hfound) _ hfound

theorem manyEnds_keeps (greedy : Bool) (c : Cursor) (hc : P c) :
    ∀ d ∈ manyEnds step greedy c, P d := by
  intro d hd
  rw [manyEnds, List.mem_reverse] at hd
  revert d
  change Explored.All P _
  refine List.foldlRecOn (step c) _ (fun d hd => absurd hd List.not_mem_nil) ?_
  intro found hfound next hnext
  have hkept : P next := hstep c hc next hnext
  split
  · exact hfound.cons hkept
  · exact explore_keeps hstep greedy _ next found hkept hfound

theorem upToEnds_keeps (greedy : Bool) (n : Nat) (c : Cursor) (hc : P c) :
    ∀ d ∈ upToEnds step greedy n c, P d := by
  intro d hd
  rw [upToEnds, List.mem_reverse] at hd
  exact exploreUpTo_keeps hstep greedy _ n c ⟨0, []⟩ hc
    (fun d hd => absurd hd List.not_mem_nil) d hd

theorem exactEnds_keeps (n : Nat) : ∀ cs : List Cursor, (∀ c ∈ cs, P c) →
    ∀ d ∈ exactEnds step n cs, P d := by
  induction n with
  | zero =>
      intro cs hcs d hd
      cases cs with
      | nil => exact absurd hd List.not_mem_nil
      | cons c cs => exact hcs d hd
  | succ n ih =>
      intro cs hcs d hd
      cases cs with
      | nil => exact absurd hd List.not_mem_nil
      | cons c cs =>
          -- One round from each of the cursors, then the others.
          refine ih _ ?_ d hd
          intro next hnext
          rcases List.mem_flatMap.mp (mem_of_mem_distinct _ hnext) with ⟨b, hb, hnext⟩
          exact hstep b (hcs b hb) next hnext

/-- What every round of a repetition keeps, the repetition keeps. -/
theorem roundsEnds_keeps (least : Nat) (most : Option Nat) (greedy : Bool) (c : Cursor)
    (hc : P c) : ∀ d ∈ roundsEnds step least most greedy c, P d := by
  have hexact : ∀ n, ∀ b ∈ exactEnds step n [c], P b := fun n =>
    exactEnds_keeps hstep n [c] (List.forall_mem_singleton.mpr hc)
  intro d hd
  unfold roundsEnds at hd
  split at hd
  · rcases List.mem_flatMap.mp hd with ⟨b, hb, hd⟩
    exact upToEnds_keeps hstep greedy _ b (hexact _ b hb) d hd
  · have hmore := manyEnds_keeps hstep greedy c hc
    simp only [] at hd
    split at hd
    · rcases List.mem_append.mp hd with hd | hd
      · exact hmore d hd
      · exact List.mem_singleton.mp hd ▸ hc
    · rcases List.mem_cons.mp hd with rfl | hd
      · exact hc
      · exact hmore d hd
  · rcases List.mem_flatMap.mp hd with ⟨b, hb, hd⟩
    exact manyEnds_keeps hstep greedy b (hexact _ b hb) d hd

end Rounds

section Matches

variable {P : Cursor → Prop}
  (hmove : ∀ index prev x rest, P ⟨index, prev, x :: rest⟩ → P ⟨index + 1, some x, rest⟩)
include hmove

theorem over_keeps (p : Char → Bool) (cs : List Cursor) (hcs : ∀ c ∈ cs, P c) :
    ∀ d ∈ cs.flatMap (Cursor.over p), P d := by
  intro d hd
  rcases List.mem_flatMap.mp hd with ⟨⟨index, prev, rest⟩, hc, hd⟩
  cases rest with
  | nil => exact absurd hd List.not_mem_nil
  | cons x rest =>
      simp only [Cursor.over] at hd
      split at hd
      · exact List.mem_singleton.mp hd ▸ hmove index prev x rest (hcs _ hc)
      · exact absurd hd List.not_mem_nil

/-- What every move over a character keeps, every match keeps. -/
theorem endsFrom_keeps (e : Expr) : ∀ cs : List Cursor, (∀ c ∈ cs, P c) →
    ∀ d ∈ e.endsFrom cs, P d := by
  induction e with
  | empty => intro cs hcs d hd; exact hcs d hd
  | char x => intro cs hcs; exact over_keeps hmove _ cs hcs
  | charAnyCase x => intro cs hcs; exact over_keeps hmove _ cs hcs
  | set s => intro cs hcs; exact over_keeps hmove _ cs hcs
  | anchor a => intro cs hcs d hd; exact hcs d (List.mem_of_mem_filter hd)
  | seq a b iha ihb =>
      intro cs hcs d hd
      rw [Expr.endsFrom] at hd
      split at hd
      · exact absurd hd List.not_mem_nil
      · exact ihb _ (iha cs hcs) d hd
  | alt a b iha ihb =>
      intro cs hcs d hd
      rcases List.mem_flatMap.mp (mem_of_mem_distinct _ hd) with ⟨c, hc, hd⟩
      have hone : ∀ c' ∈ [c], P c' := List.forall_mem_singleton.mpr (hcs c hc)
      exact (List.mem_append.mp hd).elim (iha [c] hone d) (ihb [c] hone d)
  | rounds body least most greedy ih =>
      -- A round is a match of the body from one cursor.
      intro cs hcs d hd
      rcases List.mem_flatMap.mp (mem_of_mem_distinct _ hd) with ⟨c, hc, hd⟩
      exact roundsEnds_keeps (fun b hb => ih [b] (List.forall_mem_singleton.mpr hb)) least most
        greedy c (hcs c hc) d hd

end Matches

/-- A cursor lies some characters behind another one, in the same text. -/
def Cursor.Reaches (c d : Cursor) : Prop :=
  ∃ k ≤ c.rest.length, d = c.advance k

theorem Cursor.Reaches.refl (c : Cursor) : c.Reaches c :=
  ⟨0, Nat.zero_le _, rfl⟩

/-- A cursor in front of a character, moved over one more. -/
theorem advance_succ (k : Nat) : ∀ (c : Cursor) (index : Nat) (prev : Option Char) (x : Char)
    (rest : List Char), c.advance k = ⟨index, prev, x :: rest⟩ →
      c.advance (k + 1) = ⟨index + 1, some x, rest⟩ := by
  induction k with
  | zero =>
      rintro c index prev x rest rfl
      rfl
  | succ k ih =>
      rintro ⟨first, before, text⟩ index prev x rest h
      cases text with
      | nil => cases h
      | cons y text => exact ih ⟨first + 1, some y, text⟩ index prev x rest h

/-- A match ends in the text it was started in, at its start or behind it. -/
theorem reaches_of_mem_ends (e : Expr) (c d : Cursor) (h : d ∈ e.ends c) : c.Reaches d := by
  refine endsFrom_keeps (P := c.Reaches) ?_ e [c]
    (List.forall_mem_singleton.mpr (Cursor.Reaches.refl c)) d h
  rintro index prev x rest ⟨k, -, hk⟩
  -- Something is left behind the cursor, so one more move is possible.
  have hrest : x :: rest = c.rest.drop k := by rw [← advance_rest, ← hk]
  have hlt : k < c.rest.length := by
    by_contra hge
    rw [List.drop_eq_nil_iff.mpr (Nat.le_of_not_lt hge)] at hrest
    cases hrest
  exact ⟨k + 1, hlt, (advance_succ k c index prev x rest hk.symm).symm⟩

theorem reaches_of_end? (e : Expr) (c d : Cursor) (h : e.end? c = some d) : c.Reaches d :=
  reaches_of_mem_ends e c d (List.mem_of_mem_head? h)

end SchemaRename.Pattern
