import SchemaRename.Proofs.Pattern.Ends

/-!
# Matches One after the Other

Asking a pattern for its matches, until there are no more.

A search looks for the first match from its position on, and goes on where that
one ends. A pattern that matches the empty text would be found there again, so
an empty match that touches the one before does not count: the search looks once
more, from the next character. The list of spans of a pattern is put together
in another way, by a walk over the text that tries every position once.
`spans_eq_find` says that a step of the search takes the next span off that
list. So the search comes to an end, and has then yielded all the spans and
nothing else.

How the spans lie to each other follows from the walk. A span is noted only
behind the one before, and it does not end in front of its start, because a
match moves on in the text or stays where it is.

## Main definitions

* `Match`: A match with the cursors where it starts and ends.
* `Expr.find?`: The first match from a position on.
* `Search`: The search for one match after the other.
* `Search.find?`, `Search.Yields`: The next match, and all of them.
* `Span.Free`, `Span.Before`: How a span lies to the span in front of it, and to
  those behind.

## Theorems

* `spanAt?_eq_some_iff`: Where a span is noted.
* `free_of_mem_spansFrom`, `pairwise_spansFrom`: How spans lie to each other.
* `length_spansFrom_le`: How many there are.
* `spans_of_find`: The first match is the next span.
* `spans_eq_find`, `yields_iff`: One step of the search, and the whole search.
* `occursIn_iff_spans_ne_nil`: Whether there is a match at all.
-/

namespace SchemaRename.Pattern

/-- A match, by the cursors where it starts and where it ends. -/
structure Match where
  start : Cursor
  stop : Cursor
deriving Repr, DecidableEq

def Match.span (m : Match) : Span :=
  ⟨m.start.index, m.stop.index⟩

/-- The first match from a position on. -/
def Expr.findFrom (e : Expr) (index : Nat) (prev : Option Char) : List Char → Option Match
  | [] => (e.end? ⟨index, prev, []⟩).map (Match.mk ⟨index, prev, []⟩)
  | x :: rest =>
    match e.end? ⟨index, prev, x :: rest⟩ with
    | some stop => some ⟨⟨index, prev, x :: rest⟩, stop⟩
    | none => e.findFrom (index + 1) (some x) rest

/-- The first match that starts at a cursor or behind it. -/
def Expr.find? (e : Expr) (c : Cursor) : Option Match :=
  e.findFrom c.index c.prev c.rest

/-- The search for one match after the other: where it goes on, and where the
    match before has ended. -/
structure Search where
  cursor : Cursor
  last : Option Nat
deriving Repr, DecidableEq

def Search.start (text : List Char) : Search :=
  ⟨Cursor.start text, none⟩

/-- The search goes on where a match has ended. -/
def Match.behind (m : Match) : Search :=
  ⟨m.stop, some m.stop.index⟩

/-- An empty match at the place where the match before has ended. -/
def Search.Touches (s : Search) (m : Match) : Prop :=
  m.start.index = m.stop.index ∧ s.last = some m.stop.index
deriving Decidable

/-- The next match of a search. An empty one that touches the match before does
    not count, and the search looks again from the next character. -/
def Search.find? (s : Search) (e : Expr) : Option Match :=
  match e.find? s.cursor with
  | none => none
  | some m =>
    if s.Touches m then
      match s.cursor.rest with
      | [] => none
      | _ :: _ => e.find? (s.cursor.advance 1)
    else some m

/-- A search, asked again and again, yields some spans and then nothing more. -/
inductive Search.Yields (e : Expr) : Search → List Span → Prop
  | done {s : Search} : s.find? e = none → Yields e s []
  | next {s : Search} {m : Match} {spans : List Span} : s.find? e = some m →
      Yields e m.behind spans → Yields e s (m.span :: spans)

/-- A span lies in a stretch of the text, behind the end of the span before, and
    does not touch it if it is empty. -/
structure Span.Free (last : Option Nat) (first stop : Nat) (s : Span) : Prop where
  first_le : first ≤ s.start
  start_le : s.start ≤ s.stop
  stop_le : s.stop ≤ stop
  last_le : ∀ l ∈ last, l ≤ s.start
  apart : ∀ l ∈ last, s.start = s.stop → l < s.start

/-- A span lies in front of another one. They have no character in common, and
    the second one does not touch the first if it is empty. -/
structure Span.Before (a b : Span) : Prop where
  start_lt : a.start < b.start
  stop_lt : a.stop < b.stop
  disjoint : a.stop ≤ b.start
  apart : b.start = b.stop → a.stop < b.start

/-! ### How spans lie -/

/-- A span is noted where the pattern matches, unless the span before reaches
    further or is touched by an empty match. -/
theorem spanAt?_eq_some_iff (e : Expr) (last : Option Nat) (c : Cursor) (span : Span) :
    e.spanAt? last c = some span ↔ ∃ d, e.end? c = some d ∧ span = ⟨c.index, d.index⟩ ∧
      (∀ l ∈ last, l ≤ c.index) ∧ ¬ (d.index = c.index ∧ last = some c.index) := by
  have hlast : last.any (c.index < ·) = true ↔ ¬ ∀ l ∈ last, l ≤ c.index := by
    cases last with
    | none => simp
    | some l => simp
  unfold Expr.spanAt?
  split
  · next hany =>
      have hnot := hlast.mp hany
      constructor
      · intro h; cases h
      · rintro ⟨d, -, -, hle, -⟩
        exact absurd hle hnot
  · next hany =>
      have hle : ∀ l ∈ last, l ≤ c.index := not_not.mp fun h => hany (hlast.mpr h)
      cases hend : e.end? c with
      | none => simp
      | some d =>
          simp only [Option.some.injEq, exists_eq_left', Bool.and_eq_true, beq_iff_eq]
          split
          · next htouch => simp [htouch]
          · next htouch =>
              rw [Option.some.injEq, and_iff_left ⟨hle, htouch⟩]
              exact eq_comm

theorem spanAt?_eq_none_of_end? (e : Expr) (last : Option Nat) (c : Cursor)
    (h : e.end? c = none) : e.spanAt? last c = none := by
  rw [Option.eq_none_iff_forall_ne_some]
  intro span hspan
  rcases (spanAt?_eq_some_iff e _ _ _).mp hspan with ⟨d, hd, -⟩
  cases h.symm.trans hd

/-- An empty match does not count where the span before has ended. -/
theorem spanAt?_eq_none_of_empty (e : Expr) (c d : Cursor) (hend : e.end? c = some d)
    (hempty : d.index = c.index) : e.spanAt? (some c.index) c = none := by
  rw [Option.eq_none_iff_forall_ne_some]
  intro span hspan
  rcases (spanAt?_eq_some_iff e _ _ _).mp hspan with ⟨d', hd, -, -, htouch⟩
  cases hend.symm.trans hd
  exact htouch ⟨hempty, rfl⟩

/-- A span that is noted at a cursor lies in the text behind it. -/
theorem free_of_spanAt? (e : Expr) (last : Option Nat) (c : Cursor) (span : Span)
    (h : e.spanAt? last c = some span) :
    span.Free last c.index (c.index + c.rest.length) ∧ span.start = c.index := by
  rcases (spanAt?_eq_some_iff e last c span).mp h with ⟨d, hend, rfl, hle, htouch⟩
  rcases reaches_of_end? e c d hend with ⟨k, hk, rfl⟩
  have hindex := advance_index k c hk
  refine ⟨⟨Nat.le_refl _, by simp only []; omega, by simp only []; omega, hle, ?_⟩, rfl⟩
  rintro l hl hempty
  refine Nat.lt_of_le_of_ne (hle l hl) ?_
  rintro rfl
  exact htouch ⟨hempty.symm, hl⟩

theorem free_of_mem_spansFrom (e : Expr) (text : List Char) : ∀ (last : Option Nat) (index : Nat)
    (prev : Option Char), ∀ s ∈ e.spansFrom last index prev text,
      s.Free last index (index + text.length) := by
  induction text with
  | nil =>
      intro last index prev s hs
      exact (free_of_spanAt? e last ⟨index, prev, []⟩ s (Option.mem_toList.mp hs)).1
  | cons x text ih =>
      intro last index prev s hs
      have hlength : index + 1 + text.length = index + (x :: text).length := by
        rw [List.length_cons]
        omega
      rw [Expr.spansFrom] at hs
      split at hs
      · have hfree := ih last (index + 1) (some x) s hs
        rw [hlength] at hfree
        exact { hfree with first_le := Nat.le_of_succ_le hfree.first_le }
      · next span hspan =>
          have hhere := free_of_spanAt? e last _ span hspan
          rcases List.mem_cons.mp hs with rfl | hs
          · exact hhere.1
          · -- Behind the span that is noted here, so behind the one before it.
            have hfree := ih (some span.stop) (index + 1) (some x) s hs
            have hlast : ∀ l ∈ last, l < s.start := fun l hl =>
              calc l ≤ span.start := hhere.1.last_le l hl
                _ = index := hhere.2
                _ < s.start := hfree.first_le
            rw [hlength] at hfree
            exact ⟨Nat.le_of_succ_le hfree.first_le, hfree.start_le, hfree.stop_le,
              fun l hl => Nat.le_of_lt (hlast l hl), fun l hl _ => hlast l hl⟩

theorem pairwise_spansFrom (e : Expr) (text : List Char) : ∀ (last : Option Nat) (index : Nat)
    (prev : Option Char), (e.spansFrom last index prev text).Pairwise Span.Before := by
  induction text with
  | nil =>
      intro last index prev
      rw [Expr.spansFrom]
      cases e.spanAt? last ⟨index, prev, []⟩ with
      | none => exact List.Pairwise.nil
      | some span => exact List.pairwise_singleton _ _
  | cons x text ih =>
      intro last index prev
      rw [Expr.spansFrom]
      split
      · exact ih last (index + 1) (some x)
      · next span hspan =>
          refine List.pairwise_cons.mpr ⟨fun s hs => ?_, ih _ _ _⟩
          have hstart := (free_of_spanAt? e last _ span hspan).2
          have hfree := free_of_mem_spansFrom e text (some span.stop) (index + 1) (some x) s hs
          have hfirst := hfree.first_le
          have hdisjoint := hfree.last_le _ rfl
          have hapart := hfree.apart _ rfl
          have hstop := hfree.start_le
          exact ⟨by simp only [hstart]; omega, by omega, hdisjoint, hapart⟩

/-- At most one span starts at each position. -/
theorem length_spansFrom_le (e : Expr) (text : List Char) : ∀ (last : Option Nat) (index : Nat)
    (prev : Option Char), (e.spansFrom last index prev text).length ≤ text.length + 1 := by
  induction text with
  | nil =>
      intro last index prev
      rw [Expr.spansFrom]
      exact Option.length_toList_le
  | cons x text ih =>
      intro last index prev
      rw [Expr.spansFrom]
      split
      · exact Nat.le_succ_of_le (ih last (index + 1) (some x))
      · exact Nat.succ_le_succ (ih _ (index + 1) (some x))

/-! ### One match after the other -/

/-- A search that is not inside the match before. -/
def Search.Ready (s : Search) : Prop :=
  ∀ l ∈ s.last, l ≤ s.cursor.index

theorem Match.ready_behind (m : Match) : m.behind.Ready := by
  rintro l ⟨⟩
  exact Nat.le_refl _

/-- The first match starts at the cursor or behind it, and is the preferred one
    there. -/
theorem reaches_of_find? (e : Expr) (c : Cursor) (m : Match) (h : e.find? c = some m) :
    c.Reaches m.start ∧ e.end? m.start = some m.stop := by
  rcases c with ⟨index, prev, text⟩
  induction text generalizing index prev with
  | nil =>
      rw [Expr.find?, Expr.findFrom, Option.map_eq_some_iff] at h
      rcases h with ⟨stop, hstop, rfl⟩
      exact ⟨Cursor.Reaches.refl _, hstop⟩
  | cons x text ih =>
      rw [Expr.find?, Expr.findFrom] at h
      split at h
      · next stop hstop =>
          cases h
          exact ⟨Cursor.Reaches.refl _, hstop⟩
      · rcases ih (index + 1) (some x) h with ⟨⟨k, hk, hstart⟩, hstop⟩
        exact ⟨⟨k + 1, Nat.succ_le_succ hk, hstart⟩, hstop⟩

/-- A match at the cursor is the first one. -/
theorem find?_of_end?_eq_some (e : Expr) (c stop : Cursor) (h : e.end? c = some stop) :
    e.find? c = some ⟨c, stop⟩ := by
  rcases c with ⟨index, prev, text⟩
  cases text with
  | nil => rw [Expr.find?, Expr.findFrom, h, Option.map_some]
  | cons x text => simp only [Expr.find?, Expr.findFrom, h]

/-- Without a match at the cursor, the first one is the first from the next
    character on. -/
theorem find?_of_end?_eq_none (e : Expr) (c : Cursor) (h : e.end? c = none) :
    e.find? c = match c.rest with
      | [] => none
      | _ :: _ => e.find? (c.advance 1) := by
  rcases c with ⟨index, prev, text⟩
  cases text with
  | nil => rw [Expr.find?, Expr.findFrom, h, Option.map_none]
  | cons x text => simp only [Expr.find?, Expr.findFrom, h, Cursor.advance]

/-- The spans that are still to come in a search. -/
def Search.spans (s : Search) (e : Expr) : List Span :=
  e.spansFrom s.last s.cursor.index s.cursor.prev s.cursor.rest

/-- The spans from the next character on. -/
def Search.spansOnward (s : Search) (e : Expr) : List Span :=
  match s.cursor.rest with
  | [] => []
  | _ :: _ => (Search.mk (s.cursor.advance 1) s.last).spans e

theorem spans_of_spanAt?_eq_none (e : Expr) (s : Search)
    (h : e.spanAt? s.last s.cursor = none) : s.spans e = s.spansOnward e := by
  rcases s with ⟨⟨index, prev, text⟩, last⟩
  cases text with
  | nil => simp only [Search.spans, Search.spansOnward, Expr.spansFrom, h, Option.toList_none]
  | cons x text => simp only [Search.spans, Search.spansOnward, Expr.spansFrom, h, Cursor.advance]

theorem spans_of_spanAt?_eq_some (e : Expr) (s : Search) (span : Span)
    (h : e.spanAt? s.last s.cursor = some span) :
    s.spans e = span :: (Search.mk s.cursor (some span.stop)).spansOnward e := by
  rcases s with ⟨⟨index, prev, text⟩, last⟩
  cases text with
  | nil => simp only [Search.spans, Search.spansOnward, Expr.spansFrom, h, Option.toList_some]
  | cons x text => simp only [Search.spans, Search.spansOnward, Expr.spansFrom, h, Cursor.advance]

/-- Positions inside the span before are passed over. -/
theorem spans_advance (e : Expr) (k : Nat) : ∀ c : Cursor, k ≤ c.rest.length →
    (Search.mk c (some (c.index + k))).spans e =
      (Search.mk (c.advance k) (some (c.index + k))).spans e := by
  induction k with
  | zero => intro c _; rfl
  | succ k ih =>
      rintro ⟨index, prev, text⟩ hk
      cases text with
      | nil => exact absurd hk (Nat.not_succ_le_zero k)
      | cons x text =>
          have hnone : e.spanAt? (some (index + (k + 1))) ⟨index, prev, x :: text⟩ = none := by
            rw [Expr.spanAt?, if_pos]
            simp only [Option.any_some, decide_eq_true_eq]
            omega
          have hrest := ih ⟨index + 1, some x, text⟩ (Nat.le_of_succ_le_succ hk)
          rw [show index + 1 + k = index + (k + 1) by omega] at hrest
          rw [spans_of_spanAt?_eq_none e _ hnone]
          exact hrest

/-- From the next character on, the spans behind a match are those from its end
    on. -/
theorem spansOnward_of_end? (e : Expr) (c stop : Cursor) (h : e.end? c = some stop) :
    (Search.mk c (some stop.index)).spansOnward e = (Match.mk c stop).behind.spans e := by
  rcases reaches_of_end? e c stop h with ⟨k, hk, rfl⟩
  have hindex := advance_index k c hk
  cases k with
  | zero =>
      -- The end is the cursor itself, where the empty match is found again.
      have hagain := spanAt?_eq_none_of_empty e c c h rfl
      exact (spans_of_spanAt?_eq_none e ⟨c, some c.index⟩ hagain).symm
  | succ k =>
      -- The walk passes over what is left of the match.
      rcases c with ⟨index, prev, text⟩
      cases text with
      | nil => exact absurd hk (Nat.not_succ_le_zero k)
      | cons x text =>
          have hpass := spans_advance e k ⟨index + 1, some x, text⟩ (Nat.le_of_succ_le_succ hk)
          rw [show index + 1 + k = index + (k + 1) by omega] at hpass
          rw [Match.behind, hindex]
          exact hpass

/-- A match at the cursor is the next span, unless it touches the match
    before. -/
theorem spans_of_end? (e : Expr) (c : Cursor) (last : Option Nat) (stop : Cursor)
    (hend : e.end? c = some stop) (hready : (Search.mk c last).Ready)
    (hfresh : ∀ m, e.find? c = some m → ¬ (Search.mk c last).Touches m) :
    (Search.mk c last).spans e = match e.find? c with
      | none => []
      | some m => m.span :: m.behind.spans e := by
  have hfind := find?_of_end?_eq_some e c stop hend
  have hspan : e.spanAt? last c = some ⟨c.index, stop.index⟩ := by
    refine (spanAt?_eq_some_iff e _ _ _).mpr ⟨stop, hend, rfl, hready, ?_⟩
    rintro ⟨hindex, hlast⟩
    exact hfresh _ hfind ⟨hindex.symm, by rw [hlast, hindex]⟩
  rw [hfind, spans_of_spanAt?_eq_some e ⟨c, last⟩ _ hspan]
  simp only [Match.span, spansOnward_of_end? e c stop hend]

/-- The first match is the next span, unless it touches the match before. -/
theorem spans_of_find (e : Expr) (c : Cursor) (last : Option Nat)
    (hready : (Search.mk c last).Ready)
    (hfresh : ∀ m, e.find? c = some m → ¬ (Search.mk c last).Touches m) :
    (Search.mk c last).spans e = match e.find? c with
      | none => []
      | some m => m.span :: m.behind.spans e := by
  rcases c with ⟨index, prev, text⟩
  -- Up to the first match, the walk and the search go over the text together.
  induction text generalizing index prev with
  | nil =>
      cases hend : e.end? ⟨index, prev, []⟩ with
      | none =>
          rw [find?_of_end?_eq_none e _ hend,
            spans_of_spanAt?_eq_none e _ (spanAt?_eq_none_of_end? e last _ hend)]
          rfl
      | some stop => exact spans_of_end? e _ last stop hend hready hfresh
  | cons x text ih =>
      cases hend : e.end? ⟨index, prev, x :: text⟩ with
      | none =>
          have hfind := find?_of_end?_eq_none e _ hend
          rw [hfind] at hfresh
          rw [hfind, spans_of_spanAt?_eq_none e _ (spanAt?_eq_none_of_end? e last _ hend)]
          exact ih (index + 1) (some x) (fun l hl => Nat.le_succ_of_le (hready l hl)) hfresh
      | some stop => exact spans_of_end? e _ last stop hend hready hfresh

/-- An empty match can touch the match before only at the cursor, so what is
    found from the next character on does not touch it. -/
theorem not_touches_of_advance (e : Expr) (s : Search) (m : Match) (hready : s.Ready)
    (hrest : s.cursor.rest ≠ []) (h : e.find? (s.cursor.advance 1) = some m) :
    ¬ s.Touches m := by
  rintro ⟨hempty, hlast⟩
  rcases (reaches_of_find? e _ m h).1 with ⟨k, hk, hstart⟩
  have hnext := advance_index 1 s.cursor (List.length_pos_of_ne_nil hrest)
  have hindex := advance_index k _ hk
  have hle := hready _ hlast
  rw [← hstart] at hindex
  omega

/-- A match that touches the match before is no span. It can only be at the
    cursor. -/
theorem spanAt?_eq_none_of_touches (e : Expr) (s : Search) (m : Match) (hready : s.Ready)
    (hfind : e.find? s.cursor = some m) (htouch : s.Touches m) :
    e.spanAt? s.last s.cursor = none := by
  rcases reaches_of_find? e s.cursor m hfind with ⟨⟨k, hk, hstart⟩, hend⟩
  have hindex := advance_index k s.cursor hk
  rw [← hstart] at hindex
  have hle := hready _ htouch.2
  have hempty := htouch.1
  -- The match before has ended at the cursor or in front of it.
  obtain rfl : k = 0 := by omega
  have hcursor : m.start = s.cursor := hstart
  rw [hcursor] at hend hempty
  rw [htouch.2, ← hempty]
  exact spanAt?_eq_none_of_empty e s.cursor m.stop hend hempty.symm

/-- One step of a search takes the next span off the spans to come. -/
theorem spans_eq_find (e : Expr) (s : Search) (hready : s.Ready) :
    s.spans e = match s.find? e with
      | none => []
      | some m => m.span :: m.behind.spans e := by
  by_cases htouch : ∃ m, e.find? s.cursor = some m ∧ s.Touches m
  · -- Nothing is noted at the cursor, and the search looks again behind it.
    rcases htouch with ⟨m, hfind, htouch⟩
    rw [spans_of_spanAt?_eq_none e s (spanAt?_eq_none_of_touches e s m hready hfind htouch)]
    rcases s with ⟨⟨index, prev, text⟩, last⟩
    simp only [Search.find?, hfind, if_pos htouch]
    cases text with
    | nil => rfl
    | cons x text =>
        exact spans_of_find e ⟨index + 1, some x, text⟩ last
          (fun l hl => Nat.le_succ_of_le (hready l hl))
          fun m hm => not_touches_of_advance e ⟨⟨index, prev, x :: text⟩, last⟩ m hready
            (List.cons_ne_nil x text) hm
  · have hfresh : ∀ m, e.find? s.cursor = some m → ¬ s.Touches m :=
      fun m hm ht => htouch ⟨m, hm, ht⟩
    have hfind : s.find? e = e.find? s.cursor := by
      unfold Search.find?
      cases hm : e.find? s.cursor with
      | none => rfl
      | some m => simp only [if_neg (hfresh m hm)]
    rw [hfind]
    exact spans_of_find e s.cursor s.last hready hfresh

/-- A search comes to an end, and then it has yielded the spans and nothing
    else. -/
theorem yields_iff (e : Expr) (s : Search) (hready : s.Ready) (found : List Span) :
    s.Yields e found ↔ found = s.spans e := by
  constructor
  · intro h
    induction h with
    | done hnone => rw [spans_eq_find e _ hready, hnone]
    | next hsome _ ih => rw [spans_eq_find e _ hready, hsome, ih (Match.ready_behind _)]
  · rintro rfl
    -- The list of spans is finite, so it says when the search is over.
    induction hspans : s.spans e generalizing s with
    | nil =>
        rw [spans_eq_find e s hready] at hspans
        split at hspans
        · next hnone => exact .done hnone
        · cases hspans
    | cons span spans ih =>
        rw [spans_eq_find e s hready] at hspans
        split at hspans
        · cases hspans
        · next m hsome =>
            rw [List.cons.injEq] at hspans
            rw [← hspans.1]
            exact .next hsome (ih m.behind m.ready_behind hspans.2)

theorem occursFrom_eq_isSome_findFrom (e : Expr) (text : List Char) : ∀ (index : Nat)
    (prev : Option Char), e.occursFrom index prev text = (e.findFrom index prev text).isSome := by
  induction text with
  | nil => intro index prev; rw [Expr.occursFrom, Expr.findFrom, Option.isSome_map]
  | cons x text ih =>
      intro index prev
      rw [Expr.occursFrom, Expr.findFrom, ih]
      cases e.end? ⟨index, prev, x :: text⟩ with
      | none => rfl
      | some stop => rfl

theorem ready_start (text : List Char) : (Search.start text).Ready := by
  rintro l ⟨⟩

/-- A pattern matches somewhere exactly if it has a span. -/
theorem occursIn_iff_spans_ne_nil (e : Expr) (text : List Char) :
    e.occursIn text = true ↔ e.spans text ≠ [] := by
  -- Nothing is in front of the first match that it could touch.
  have hspans := spans_of_find e (Cursor.start text) none (ready_start text)
    (by rintro m - ⟨-, hlast⟩; cases hlast)
  change e.spans text = _ at hspans
  rw [Expr.occursIn, occursFrom_eq_isSome_findFrom, hspans]
  change (e.find? (Cursor.start text)).isSome = true ↔ _
  cases e.find? (Cursor.start text) with
  | none => simp
  | some m => simp

end SchemaRename.Pattern
