import SchemaRename.Pattern.Parser
import SchemaRename.Proofs.Pattern.Needle

/-!
# Escaped Text as a Pattern

What a pattern matches that was made by escaping a text.

The reader of patterns gives a meaning to some characters and takes all
others literally. Escaping puts a backslash in front of exactly those that
could mean something, and behind a backslash each of them is literal again.
So reading an escaped text pushes one literal piece for each character of the
text, whatever follows it, and the pieces become one sequence.

A sequence of literals has at most one way to match from a position. Its ends
are therefore an empty list or a single cursor, and the search for matches
takes the same turns as the search for a needle. The only thing that can
follow an escaped text here is the anchor for the end of the text, which
drops an end that has something left behind it.

## Main definitions

* `literalPiece`: The piece a literal character is read into.
* `Cursor.advance`: A cursor, some characters on.
* `Finds`: Expressions that match a needle and nothing else.

## Theorems

* `step_plain`, `step_backslash`: One character is read as a literal.
* `readFrom_escape`: An escaped text is read as its literals.
* `endsFrom_literals`: Where a sequence of literals can end.
* `spans_of_finds`: An expression that finds a needle has its places.
* `occursIn_of_finds`: The same for whether there is a match at all.
* `parse_escape`, `parse_escape_end`: What an escaped text matches, anywhere
  and at the end of the text.
-/

namespace SchemaRename.Pattern

open SchemaRename.Text

def literalPiece (f : Flags) (c : Char) : Piece :=
  { expr := f.literal c }

theorem skipBlank_of_not_verbose (f : Flags) (s : List Char) (h : f.verbose = false) :
    f.skipBlank s = s := by
  rw [Flags.skipBlank, h]
  rfl

/-- A character without a meaning of its own is read as a literal. -/
theorem step_plain (r : Reading) (c : Char) (rest : List Char) (h : isMeta c = false) :
    r.step c rest = .ok (r.push (literalPiece r.flags c), rest) := by
  unfold Reading.step
  simp only []
  -- Every construct but the last starts with a character that has a meaning.
  split
  case h_13 => rfl
  all_goals exact absurd h (by decide)

/-- Behind a backslash a character with a meaning is read as a literal. -/
theorem step_backslash (r : Reading) (c : Char) (rest : List Char) (h : isMeta c = true) :
    r.step '\\' (c :: rest) = .ok (r.push (literalPiece r.flags c), rest) := by
  have hescapable : isEscapable c = true := by
    rw [isEscapable, h, Bool.true_or]
  simp only [Reading.step, readEscape, hescapable, if_true]
  rfl

theorem readFrom_escape_cons (fuel : Nat) (r : Reading) (c : Char) (rest : List Char)
    (h : r.flags.verbose = false) :
    readFrom (fuel + 1) r (escape [c] ++ rest) =
      readFrom fuel (r.push (literalPiece r.flags c)) rest := by
  cases hc : isMeta c with
  | false =>
      have hescape : escape [c] ++ rest = c :: rest := by
        simp only [escape, List.flatMap_cons, List.flatMap_nil, hc, Bool.false_eq_true, if_false,
          List.append_nil, List.cons_append, List.nil_append]
      rw [hescape, readFrom, skipBlank_of_not_verbose r.flags _ h]
      simp only [step_plain r c rest hc]
  | true =>
      have hescape : escape [c] ++ rest = '\\' :: c :: rest := by
        simp only [escape, List.flatMap_cons, List.flatMap_nil, hc, if_true, List.append_nil,
          List.cons_append, List.nil_append]
      -- Both characters are taken in one round, so the fuel is that of the text.
      rw [hescape, readFrom, skipBlank_of_not_verbose r.flags _ h]
      simp only [step_backslash r c rest hc]

theorem escape_cons (c : Char) (s : List Char) : escape (c :: s) = escape [c] ++ escape s := by
  simp only [escape, List.flatMap_cons, List.flatMap_nil, List.append_nil]

theorem escape_append (s t : List Char) : escape (s ++ t) = escape s ++ escape t := by
  simp only [escape, List.flatMap_append]

theorem length_le_escape (s : List Char) : s.length ≤ (escape s).length := by
  induction s with
  | nil => exact Nat.le_refl 0
  | cons c s ih =>
      have hone : 1 ≤ (escape [c]).length := by
        simp only [escape, List.flatMap_cons, List.flatMap_nil, List.append_nil]
        split
        · exact Nat.le_succ 1
        · exact Nat.le_refl 1
      rw [escape_cons, List.length_append, List.length_cons]
      omega

/-- An escaped text is read as its literals, whatever follows it. -/
theorem readFrom_escape (s : List Char) : ∀ (fuel : Nat) (r : Reading) (rest : List Char),
    r.flags.verbose = false →
    readFrom (s.length + fuel) r (escape s ++ rest) =
      readFrom fuel { r with current := { r.current with
        pieces := (s.map (literalPiece r.flags)).reverse ++ r.current.pieces } } rest := by
  induction s with
  | nil =>
      intro fuel r rest _
      rw [List.length_nil, Nat.zero_add]
      rfl
  | cons c s ih =>
      intro fuel r rest hv
      rw [escape_cons, List.append_assoc, List.length_cons,
        show s.length + 1 + fuel = s.length + fuel + 1 by omega,
        readFrom_escape_cons _ r c _ hv, ih fuel (r.push (literalPiece r.flags c)) rest hv]
      simp only [Reading.push, Group.push, List.map_cons, List.reverse_cons, List.append_assoc,
        List.singleton_append]

/-- A branch of one piece is that piece, and means the same as the sequence
    of it. -/
theorem endsFrom_branch (g : Group) (cs : List Cursor) :
    g.branch.expr.endsFrom cs = (sequence (g.pieces.reverse.map (·.expr))).endsFrom cs := by
  unfold Group.branch
  split
  · rename_i h
    rw [h]
    rfl
  · -- A lone piece is not wrapped in a sequence.
    rename_i p h
    rw [h]
    simp only [List.reverse_singleton, List.map_cons, List.map_nil, sequence, List.foldr_cons,
      List.foldr_nil, Expr.endsFrom]
    cases p.expr.endsFrom cs with
    | nil => rfl
    | cons c ends => rfl
  · rfl

theorem depth_branch (g : Group) (h : ∀ p ∈ g.pieces, p.depth = 0) : g.branch.depth ≤ 1 := by
  have hdeepest : ∀ pieces : List Piece, (∀ p ∈ pieces, p.depth = 0) → deepest pieces = 0 := by
    intro pieces
    induction pieces with
    | nil => intro _; rfl
    | cons p pieces ih =>
        intro hp
        have hrest := ih (fun q hq => hp q (List.mem_cons_of_mem p hq))
        rw [deepest] at hrest
        rw [deepest, List.foldr_cons, hrest, hp p List.mem_cons_self]
        rfl
  unfold Group.branch
  split
  · exact Nat.zero_le 1
  · rename_i p hp
    rw [h p (by rw [hp]; exact List.mem_singleton_self p)]
    exact Nat.zero_le 1
  · simp only [hdeepest g.pieces h, Nat.zero_add, Nat.le_refl]

/-- A cursor moved over some characters, as far as there are any. -/
def Cursor.advance : Nat → Cursor → Cursor
  | 0, c => c
  | _ + 1, ⟨index, prev, []⟩ => ⟨index, prev, []⟩
  | k + 1, ⟨index, _, x :: rest⟩ => Cursor.advance k ⟨index + 1, some x, rest⟩

theorem advance_rest (k : Nat) : ∀ (c : Cursor), (c.advance k).rest = c.rest.drop k := by
  induction k with
  | zero => intro c; rfl
  | succ k ih =>
      intro c
      rcases c with ⟨index, prev, rest⟩
      cases rest with
      | nil => rfl
      | cons x rest => exact ih ⟨index + 1, some x, rest⟩

theorem advance_index (k : Nat) : ∀ (c : Cursor), k ≤ c.rest.length →
    (c.advance k).index = c.index + k := by
  induction k with
  | zero => intro c _; rfl
  | succ k ih =>
      intro c hk
      rcases c with ⟨index, prev, rest⟩
      cases rest with
      | nil => exact absurd hk (by simp only [List.length_nil]; omega)
      | cons x rest =>
          have := ih ⟨index + 1, some x, rest⟩ (Nat.le_of_succ_le_succ hk)
          rw [Cursor.advance, this]
          simp only []
          omega

/-- A literal moves over one character that agrees with it. -/
theorem endsFrom_literal (anyCase : Bool) (x : Char) (c : Cursor) :
    (Flags.literal { anyCase } x).endsFrom [c] = c.over (agrees anyCase x) := by
  cases anyCase with
  | true => exact List.append_nil _
  | false =>
      have hsame : (fun d => d == x) = agrees false x := by
        funext d
        exact Bool.eq_iff_iff.mpr (by
          simp only [agrees, Bool.false_eq_true, if_false, beq_iff_eq]
          exact eq_comm)
      rw [← hsame]
      exact List.append_nil _

/-- A sequence stops where its first part has no way on. -/
theorem endsFrom_sequence_nil (e : Expr) (es : List Expr) (cs : List Cursor)
    (h : e.endsFrom cs = []) : (sequence (e :: es)).endsFrom cs = [] := by
  rw [sequence, List.foldr_cons, Expr.endsFrom, h]

theorem endsFrom_sequence_cons (e : Expr) (es : List Expr) (cs : List Cursor) (d : Cursor)
    (ds : List Cursor) (h : e.endsFrom cs = d :: ds) :
    (sequence (e :: es)).endsFrom cs = (sequence es).endsFrom (d :: ds) := by
  rw [sequence, List.foldr_cons, Expr.endsFrom, h]
  rfl

/-- Literals in front of a sequence: either the text starts with them and the
    sequence goes on behind, or there is no match. -/
theorem endsFrom_literals (anyCase : Bool) (more : List Expr) (s : List Char) : ∀ (c : Cursor),
    (sequence (s.map (Flags.literal { anyCase }) ++ more)).endsFrom [c] =
      if startsWithBy (agrees anyCase) s c.rest then
        (sequence more).endsFrom [c.advance s.length] else [] := by
  induction s with
  | nil => intro c; rfl
  | cons x s ih =>
      intro c
      -- One cursor goes in, so at most one comes out.
      have hfirst := endsFrom_literal anyCase x c
      rw [List.map_cons, List.cons_append]
      rcases c with ⟨index, prev, rest⟩
      cases rest with
      | nil => exact endsFrom_sequence_nil _ _ _ hfirst
      | cons y rest =>
          have hover : Cursor.over (agrees anyCase x) ⟨index, prev, y :: rest⟩ =
              if agrees anyCase x y then [⟨index + 1, some y, rest⟩] else [] := rfl
          rw [hover] at hfirst
          rw [startsWithBy]
          cases hxy : agrees anyCase x y with
          | false =>
              rw [hxy] at hfirst
              rw [endsFrom_sequence_nil _ _ _ hfirst]
              rfl
          | true =>
              rw [hxy] at hfirst
              rw [endsFrom_sequence_cons _ _ _ _ _ hfirst, Bool.true_and]
              exact ih ⟨index + 1, some y, rest⟩

/-- An expression that matches a needle and nothing else. -/
def Finds (e : Expr) (n : Needle) : Prop :=
  ∀ c : Cursor, (e.end? c).map (·.index) =
    if n.occursAt c.rest then some (c.index + n.chars.length) else none

theorem length_le_of_startsWithBy (same : Char → Char → Bool) (start text : List Char)
    (h : startsWithBy same start text = true) : start.length ≤ text.length := by
  rcases (startsWithBy_iff same start text).mp h with ⟨m, rest, rfl, hm⟩
  rw [List.length_append, hm.length_eq]
  omega

theorem finds_literals (anyCase : Bool) (s : List Char) (e : Expr)
    (h : ∀ cs, e.endsFrom cs = (sequence (s.map (Flags.literal { anyCase }))).endsFrom cs) :
    Finds e ⟨s, anyCase, false⟩ := by
  intro c
  have hends := endsFrom_literals anyCase [] s c
  rw [List.append_nil] at hends
  rw [Expr.end?, Expr.ends, h, hends, Needle.occursAt, Bool.not_false, Bool.true_or,
    Bool.and_true]
  split
  · rename_i hs
    have hle := length_le_of_startsWithBy _ _ _ hs
    simp only [sequence, List.foldr_nil, Expr.endsFrom, List.head?_cons, Option.map_some,
      advance_index s.length c hle]
  · rfl

/-- Behind literals, the anchor for the end of the text keeps the match only
    if nothing is left. -/
theorem finds_literals_end (anyCase : Bool) (s : List Char) (e : Expr)
    (h : ∀ cs, e.endsFrom cs =
      (sequence (s.map (Flags.literal { anyCase }) ++ [.anchor .textEnd])).endsFrom cs) :
    Finds e ⟨s, anyCase, true⟩ := by
  intro c
  rw [Expr.end?, Expr.ends, h, endsFrom_literals anyCase [.anchor .textEnd] s c,
    Needle.occursAt, Bool.not_true, Bool.false_or]
  cases hs : startsWithBy (agrees anyCase) s c.rest with
  | false => rfl
  | true =>
      have hle := length_le_of_startsWithBy _ _ _ hs
      have hrest := advance_rest s.length c
      -- An anchor moves nothing; it keeps the cursor or drops it.
      have hends : (sequence [.anchor .textEnd]).endsFrom [c.advance s.length] =
          [c.advance s.length].filter Anchor.textEnd.holdsAt := by
        rw [sequence, List.foldr_cons, List.foldr_nil, Expr.endsFrom, Expr.endsFrom]
        cases [c.advance s.length].filter Anchor.textEnd.holdsAt with
        | nil => rfl
        | cons d ds => rfl
      have hholds : Anchor.textEnd.holdsAt (c.advance s.length) =
          (c.rest.drop s.length).head?.isNone := by
        rw [← hrest]
        rfl
      rw [if_pos rfl, hends, Bool.true_and]
      cases hdrop : c.rest.drop s.length with
      | nil =>
          have hlen : c.rest.length = s.length :=
            Nat.le_antisymm (List.drop_eq_nil_iff.mp hdrop) hle
          rw [hdrop] at hholds
          rw [List.filter_cons_of_pos hholds, if_pos (beq_iff_eq.mpr hlen), List.filter_nil,
            List.head?_cons, Option.map_some, advance_index s.length c hle]
      | cons x rest =>
          have hlen : ¬ c.rest.length = s.length := by
            intro heq
            rw [List.drop_eq_nil_iff.mpr (Nat.le_of_eq heq)] at hdrop
            exact absurd hdrop (by simp only [reduceCtorEq, not_false_eq_true])
          rw [hdrop] at hholds
          rw [List.filter_cons_of_neg (by rw [hholds]; simp only [List.head?_cons,
            Option.isNone_some, Bool.false_eq_true, not_false_eq_true]),
            if_neg (by rw [beq_iff_eq]; exact hlen)]
          rfl

/-- The span of a match that starts at a cursor, for an expression that finds
    a needle: the end of the span before it only rules out places inside
    that span. -/
theorem spanAt?_of_finds (e : Expr) (n : Needle) (hne : n.chars ≠ []) (h : Finds e n)
    (last : Option Nat) (c : Cursor) :
    e.spanAt? last c =
      if last.any (c.index < ·) then none
      else if n.occursAt c.rest then some ⟨c.index, c.index + n.chars.length⟩ else none := by
  have hpos : 0 < n.chars.length := List.length_pos_of_ne_nil hne
  have hc := h c
  rw [Expr.spanAt?]
  split
  · rfl
  · cases hocc : n.occursAt c.rest with
    | false =>
        rw [hocc, if_neg (by decide), Option.map_eq_none_iff] at hc
        rw [hc, if_neg (by decide)]
    | true =>
        rw [hocc, if_pos rfl, Option.map_eq_some_iff] at hc
        rcases hc with ⟨stop, hstop, hindex⟩
        -- The needle is not empty, so the match is not either.
        have hnonempty : (stop.index == c.index) = false := by
          rw [beq_eq_false_iff_ne]
          omega
        rw [hstop, if_pos rfl]
        simp only [hnonempty, Bool.false_and, Bool.false_eq_true, if_false]
        rw [hindex]

theorem any_lt_iff (last : Option Nat) (index : Nat) :
    last.any (index < ·) = true ↔ index < last.getD 0 := by
  cases last with
  | none =>
      constructor
      · intro h; exact absurd h Bool.false_ne_true
      · intro h; exact absurd h (Nat.not_lt_zero index)
  | some stop => exact decide_eq_true_iff

/-- Spans from a position on. What is left of the span before it is what the
    search for the needle still has to pass over. -/
theorem spansFrom_of_finds (e : Expr) (n : Needle) (hne : n.chars ≠ []) (h : Finds e n)
    (text : List Char) : ∀ (last : Option Nat) (index : Nat) (prev : Option Char),
      e.spansFrom last index prev text = n.spansFrom (last.getD 0 - index) index text := by
  induction text with
  | nil =>
      intro last index prev
      rw [Expr.spansFrom, spanAt?_of_finds e n hne h, Needle.occursAt_nil n hne,
        if_neg Bool.false_ne_true, ite_self, Needle.spansFrom]
      rfl
  | cons x text ih =>
      intro last index prev
      rw [Expr.spansFrom, spanAt?_of_finds e n hne h]
      by_cases hlast : last.any (index < ·) = true
      · -- Still inside the span before, and one character less to pass over.
        rw [if_pos hlast]
        rw [any_lt_iff] at hlast
        rw [show last.getD 0 - index = (last.getD 0 - (index + 1)) + 1 by omega]
        exact ih last (index + 1) (some x)
      · rw [if_neg hlast]
        rw [any_lt_iff] at hlast
        rw [show last.getD 0 - index = 0 by omega, Needle.spansFrom]
        cases hocc : n.occursAt (x :: text) with
        | true =>
            -- The new span ends where the needle does.
            have hrest := ih (some (index + n.chars.length)) (index + 1) (some x)
            rw [Option.getD_some, show index + n.chars.length - (index + 1) =
              n.chars.length - 1 by omega] at hrest
            simp only [if_true, hrest]
        | false =>
            -- The span before is left behind, so nothing is to be passed over.
            have hrest := ih last (index + 1) (some x)
            rw [show last.getD 0 - (index + 1) = 0 by omega] at hrest
            simp only [Bool.false_eq_true, if_false, hrest]

theorem spans_of_finds (e : Expr) (n : Needle) (hne : n.chars ≠ []) (h : Finds e n)
    (text : List Char) : e.spans text = n.spans text :=
  spansFrom_of_finds e n hne h text none 0 none

theorem occursFrom_of_finds (e : Expr) (n : Needle) (h : Finds e n) (text : List Char) :
    ∀ (index : Nat) (prev : Option Char), e.occursFrom index prev text = n.occursIn text := by
  have hsome : ∀ c : Cursor, (e.end? c).isSome = n.occursAt c.rest := by
    intro c
    rw [← Option.isSome_map, h c]
    cases n.occursAt c.rest with
    | true => rfl
    | false => rfl
  induction text with
  | nil =>
      intro index prev
      rw [Expr.occursFrom, hsome, Needle.occursIn]
  | cons x text ih =>
      intro index prev
      rw [Expr.occursFrom, hsome, Needle.occursIn, ih]

theorem occursIn_of_finds (e : Expr) (n : Needle) (h : Finds e n) (text : List Char) :
    e.occursIn text = n.occursIn text :=
  occursFrom_of_finds e n h text 0 none

def Reading.start (anyCase : Bool) : Reading :=
  { flags := { anyCase }, current := { outerFlags := { anyCase } } }

/-- A pattern that is read into pieces of one branch, none of them nested, is
    accepted, and means the sequence of them. -/
theorem parse_of_readFrom (anyCase : Bool) (pattern : List Char) (pieces : List Piece)
    (hread : readFrom (pattern.length + 1) (Reading.start anyCase) pattern =
      .ok { Reading.start anyCase with current := { (Reading.start anyCase).current with pieces } })
    (hdepth : ∀ p ∈ pieces, p.depth = 0) :
    ∃ e, parse anyCase pattern = .ok e ∧
      ∀ cs, e.endsFrom cs = (sequence (pieces.reverse.map (·.expr))).endsFrom cs := by
  let g : Group := { (Reading.start anyCase).current with pieces }
  -- Without nesting the limit on depth is far away.
  have hshallow : ¬ maxDepth < g.branch.depth := by
    have := depth_branch g hdepth
    rw [maxDepth]
    omega
  refine ⟨g.branch.expr, ?_, endsFrom_branch g⟩
  have hparse : parse anyCase pattern =
      if maxDepth < g.branch.depth then .error .nestedTooDeep else .ok g.branch.expr := by
    unfold parse
    change (readFrom (pattern.length + 1) (Reading.start anyCase) pattern >>= _) = _
    rw [hread]
    rfl
  rw [hparse, if_neg hshallow]

/-- Reading an escaped text from the start, with enough rounds left for what
    follows it. -/
theorem readFrom_start (anyCase : Bool) (s rest : List Char) :
    ∃ fuel, rest.length < fuel ∧
      readFrom ((escape s ++ rest).length + 1) (Reading.start anyCase) (escape s ++ rest) =
        readFrom fuel { Reading.start anyCase with current := { (Reading.start anyCase).current with
          pieces := (s.map (literalPiece { anyCase })).reverse } } rest := by
  have hlen := length_le_escape s
  -- A character of the text takes one round, and one or two of the pattern.
  refine ⟨(escape s ++ rest).length + 1 - s.length, ?_, ?_⟩
  · rw [List.length_append]
    omega
  · have hread := readFrom_escape s ((escape s ++ rest).length + 1 - s.length)
      (Reading.start anyCase) rest rfl
    rw [Nat.add_sub_cancel' (by rw [List.length_append]; omega)] at hread
    rw [hread]
    simp only [Reading.start, List.append_nil]

theorem depth_of_mem_literals (f : Flags) (s : List Char) :
    ∀ p ∈ (s.map (literalPiece f)).reverse, p.depth = 0 := by
  intro p hp
  rw [List.mem_reverse, List.mem_map] at hp
  rcases hp with ⟨c, _, rfl⟩
  rfl

/-- The pattern of an escaped text reads, and finds the text. -/
theorem parse_escape (anyCase : Bool) (s : List Char) :
    ∃ e, parse anyCase (escape s) = .ok e ∧ Finds e ⟨s, anyCase, false⟩ := by
  rcases readFrom_start anyCase s [] with ⟨fuel, hfuel, hread⟩
  rcases Nat.exists_eq_add_of_lt hfuel with ⟨k, rfl⟩
  rw [List.append_nil] at hread
  rcases parse_of_readFrom anyCase (escape s) _ hread (depth_of_mem_literals _ s)
    with ⟨e, he, hends⟩
  refine ⟨e, he, finds_literals anyCase s e ?_⟩
  intro cs
  rw [hends cs, List.reverse_reverse, List.map_map]
  rfl

/-- With a dollar sign behind it, the text is found at the end only. -/
theorem parse_escape_end (anyCase : Bool) (s : List Char) :
    ∃ e, parse anyCase (escape s ++ ['$']) = .ok e ∧ Finds e ⟨s, anyCase, true⟩ := by
  rcases readFrom_start anyCase s ['$'] with ⟨fuel, hfuel, hread⟩
  rcases Nat.exists_eq_add_of_lt hfuel with ⟨k, rfl⟩
  let pieces : List Piece :=
    { expr := .anchor .textEnd } :: (s.map (literalPiece { anyCase })).reverse
  have hend : readFrom ((escape s ++ ['$']).length + 1) (Reading.start anyCase)
      (escape s ++ ['$']) = .ok { Reading.start anyCase with
        current := { (Reading.start anyCase).current with pieces } } := by
    rw [hread, List.length_singleton, show 1 + k + 1 = k + 1 + 1 by omega]
    rfl
  have hdepth : ∀ p ∈ pieces, p.depth = 0 := by
    intro p hp
    rcases List.mem_cons.mp hp with rfl | hp
    · rfl
    · exact depth_of_mem_literals _ s p hp
  rcases parse_of_readFrom anyCase _ pieces hend hdepth with ⟨e, he, hends⟩
  refine ⟨e, he, finds_literals_end anyCase s e ?_⟩
  intro cs
  rw [hends cs, List.reverse_cons, List.reverse_reverse, List.map_append, List.map_map]
  rfl

end SchemaRename.Pattern
