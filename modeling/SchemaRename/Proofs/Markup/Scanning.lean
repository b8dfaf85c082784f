import Mathlib.Data.List.DropRight
import SchemaRename.Proofs.Markup.Tags

/-!
# Scanning Without Fuel

The scanner counts down from the length of its text, and nothing about a
document depends on that number.

Every part that the scanner delivers takes at least one character off the
text in front of it. So a supply of one more than the length of the text is
never used up, and any larger supply gives the same parts. `scanRest` is the
scan with exactly that supply, and `scanRest_of_delivered` unfolds it by one
step with no number in sight.

Offsets are the other thing to be rid of. They serve messages, and a text
that scans without a fault yields no message. `Scans` says that a text yields
certain parts and no fault from whatever offset it is scanned; lemmas about
it say how putting something in front of the text puts something in front of
the parts.

## Main definitions

* `Scanner.scanRest`: Everything a scanner still has to deliver.
* `Scans`: A text that yields parts and no fault.

## Theorems

* `step_rest_length_lt`: A step takes at least one character.
* `scanFrom_eq_scanRest`: More fuel than characters is enough fuel.
* `scanRest_of_delivered`, `scanRest_of_finished`: The scan, one step on.
* `scans_blank`: Blanks yield nothing.
* `scans_opening`, `scans_empty`, `scans_closing`, `scans_text`,
  `scans_declaration`: What each part of a written document yields.
-/

namespace SchemaRename.Markup

open SchemaRename.Text

theorem cutTag?_rest_length_lt (s : List Char) : ∀ (quote : Option Char) (content rest : List Char),
    cutTag? quote s = some (content, rest) → rest.length < s.length := by
  induction s with
  | nil => intro quote content rest h; exact absurd h (by simp only [cutTag?, reduceCtorEq,
      not_false_eq_true])
  | cons c s ih =>
      intro quote content rest h
      -- Wherever the search goes on, it has dropped `c`.
      have hon : ∀ (q : Option Char),
          ((cutTag? q s).map fun cut => (c :: cut.1, cut.2)) =
            some (content, rest) → rest.length < (c :: s).length := by
        intro q hq
        rcases Option.map_eq_some_iff.mp hq with ⟨⟨content', rest'⟩, hcut, heq⟩
        have hlt := ih q content' rest' hcut
        simp only [Prod.mk.injEq] at heq
        rw [← heq.2, List.length_cons]
        omega
      cases quote with
      | none =>
          rw [cutTag?] at h
          split at h
          · rw [Option.some.injEq, Prod.mk.injEq] at h
            rw [← h.2, List.length_cons]
            omega
          · exact hon _ h
      | some q => exact hon _ h

theorem cutWhere?_rest_length_lt (isEnd : List Char → Bool) (s : List Char) :
    ∀ (before content rest : List Char),
      cutWhere? isEnd before s = some (content, rest) → rest.length < s.length := by
  induction s with
  | nil => intro before content rest h; exact absurd h (by simp only [cutWhere?, reduceCtorEq,
      not_false_eq_true])
  | cons c s ih =>
      intro before content rest h
      rw [cutWhere?] at h
      split at h
      · rw [Option.some.injEq, Prod.mk.injEq] at h
        rw [← h.2, List.length_cons]
        omega
      · have hlt := ih (c :: before) content rest h
        rw [List.length_cons]
        omega

theorem cutAtBracket_rest_length_lt (c : Char) (s : List Char) :
    (cutAtBracket (c :: s)).2.2.length < (c :: s).length := by
  rw [cutAtBracket]
  cases h : (c :: s).dropWhile (· != '>') with
  | nil => exact Nat.succ_pos _
  | cons d rest =>
      have hle := (List.dropWhile_sublist (· != '>') (l := c :: s)).length_le
      rw [h, List.length_cons] at hle
      exact hle

/-- A comment, a section or a document type takes at least one character. All
    three are found by the same search, and what it leaves is what is left. -/
theorem bang_rest_length_lt (s next : Scanner) (offset : Nat) (text : List Char)
    (event : Option Event) (h : s.bang offset text = .delivered event next) :
    next.rest.length < text.length := by
  -- Whatever does not deliver contradicts `h`; three searches are left.
  unfold Scanner.bang at h
  simp only [] at h
  split at h
  · cases h
  · split at h
    · cases h
    · rename_i content rest hcut
      split at h
      · cases h
        exact cutWhere?_rest_length_lt endsData text [] content rest hcut
      · cases h
  · split at h
    · cases h
    · rename_i content rest hcut
      split at h
      · cases h
        exact cutWhere?_rest_length_lt endsComment text [] content rest hcut
      · cases h
  · split at h
    · split at h
      · cases h
      · rename_i content rest hcut
        split at h
        · cases h
        · split at h
          · cases h
          · cases h
            exact cutWhere?_rest_length_lt endsDoctype text [] content rest hcut
    · cases h

theorem closing_rest_length_lt (s next : Scanner) (offset : Nat) (c : Char) (text : List Char)
    (event : Option Event) (h : s.closing offset (c :: text) = .delivered event next) :
    next.rest.length < (c :: text).length := by
  have hlt := cutAtBracket_rest_length_lt c text
  unfold Scanner.closing at h
  cases hopen : s.opened with
  | nil =>
      rw [hopen] at h
      cases h
  | cons expected opened =>
      rw [hopen] at h
      simp only [] at h
      -- Which name was read does not matter, only that the cut was made.
      generalize (if ((cutAtBracket (c :: text)).1.drop 1).all isSpace then
        (cutAtBracket (c :: text)).1.drop 1 else
        trimSpaceEnd ((cutAtBracket (c :: text)).1.drop 1)) = name at h
      split at h
      · cases h
        exact hlt
      · cases h

theorem instruction_rest_length_lt (s next : Scanner) (offset : Nat) (c : Char) (text : List Char)
    (event : Option Event) (h : s.instruction offset (c :: text) = .delivered event next) :
    next.rest.length < (c :: text).length := by
  have hlt := cutAtBracket_rest_length_lt c text
  unfold Scanner.instruction at h
  simp only [] at h
  split at h
  · split at h
    · cases h
      exact hlt
    · cases h
      exact hlt
  · cases h

theorem tag_rest_length_lt (s next : Scanner) (offset : Nat) (text : List Char)
    (event : Option Event) (h : s.tag offset text = .delivered event next) :
    next.rest.length < text.length := by
  unfold Scanner.tag at h
  cases hc : cutTag? none text with
  | none =>
      rw [hc] at h
      cases h
  | some cut =>
      rcases cut with ⟨content, rest⟩
      have hlt := cutTag?_rest_length_lt text none content rest hc
      rw [hc] at h
      simp only [] at h
      split at h
      · cases h
        exact hlt
      · cases h
        exact hlt

/-- A step takes at least one character. -/
theorem step_rest_length_lt (s next : Scanner) (event : Option Event)
    (h : s.step = .delivered event next) : next.rest.length < s.rest.length := by
  have hle := (List.dropWhile_sublist isSpace (l := s.rest)).length_le
  unfold Scanner.step at h
  simp only [] at h
  split at h
  · cases h
  · cases h
  · rename_i rest htext
    have hlt := bang_rest_length_lt s next _ _ event h
    rw [htext, List.length_cons] at hle
    omega
  · rename_i rest htext
    have hlt := closing_rest_length_lt s next _ _ _ event h
    rw [htext, List.length_cons] at hle
    omega
  · rename_i rest htext
    have hlt := instruction_rest_length_lt s next _ _ _ event h
    rw [htext, List.length_cons] at hle
    omega
  · rename_i rest _ _ _ _ htext
    have hlt := tag_rest_length_lt s next _ _ event h
    rw [htext, List.length_cons] at hle
    omega
  · rename_i hnil _ _ _ _ hlt
    cases h
    -- Text starts with something that is no tag, so it is not empty.
    cases htext : s.rest.dropWhile isSpace with
    | nil => exact absurd htext hnil
    | cons c text =>
        have hc : (c != '<') = true := by
          rw [bne_iff_ne]
          intro hc
          exact hlt text (by rw [htext, hc])
        have hdrop := (List.dropWhile_sublist (· != '<') (l := text)).length_le
        have hcons : (c :: text).dropWhile (· != '<') = text.dropWhile (· != '<') :=
          List.dropWhile_cons_of_pos hc
        rw [htext, List.length_cons] at hle
        simp only [hcons]
        omega

/-- Everything a scanner still has to deliver. -/
def Scanner.scanRest (s : Scanner) : Scan :=
  scanFrom (s.rest.length + 1) s

/-- More fuel than characters is enough fuel. -/
theorem scanFrom_eq_scanRest : ∀ (fuel : Nat) (s : Scanner), s.rest.length < fuel →
    scanFrom fuel s = s.scanRest := by
  intro fuel
  induction fuel using Nat.strongRecOn with
  | ind fuel ih =>
    intro s hlt
    cases fuel with
    | zero => omega
    | succ fuel =>
        rw [Scanner.scanRest, scanFrom, scanFrom]
        cases hstep : s.step with
        | finished => rfl
        | failed offset fault => rfl
        | delivered event next =>
            have hnext := step_rest_length_lt s next event hstep
            simp only []
            -- Both sides go on from the same scanner, with enough fuel each.
            rw [ih fuel (by omega) next (by omega), ih s.rest.length hlt next hnext]

theorem scanRest_of_finished (s : Scanner) (h : s.step = .finished) : s.scanRest = ⟨[], none⟩ := by
  rw [Scanner.scanRest, scanFrom, h]

/-- The scan, one delivered part on. -/
theorem scanRest_of_delivered (s next : Scanner) (event : Option Event)
    (h : s.step = .delivered event next) :
    s.scanRest = ⟨event.toList ++ next.scanRest.events, next.scanRest.fault⟩ := by
  have hnext := step_rest_length_lt s next event h
  rw [Scanner.scanRest, scanFrom, h]
  simp only []
  rw [scanFrom_eq_scanRest s.rest.length next hnext]

/-- A text that yields certain parts and no fault when the given tags are
    open, whatever the offset it stands at. -/
def Scans (opened : List (List Char)) (text : List Char) (events : List Event) : Prop :=
  ∀ offset, (Scanner.mk offset text opened).scanRest = ⟨events, none⟩

/-- One step in front of a text that scans. -/
theorem scans_of_step (opened opened' : List (List Char)) (text rest : List Char)
    (event : Option Event) (events : List Event)
    (hstep : ∀ offset, ∃ offset', (Scanner.mk offset text opened).step =
      .delivered event ⟨offset', rest, opened'⟩)
    (h : Scans opened' rest events) : Scans opened text (event.toList ++ events) := by
  intro offset
  rcases hstep offset with ⟨offset', hs⟩
  rw [scanRest_of_delivered _ _ _ hs, h offset']

theorem scans_blank (opened : List (List Char)) (blanks : List Char)
    (hb : ∀ c ∈ blanks, isSpace c = true) : Scans opened blanks [] := by
  intro offset
  have hdrop : blanks.dropWhile isSpace = [] := List.dropWhile_eq_nil_iff.mpr hb
  refine scanRest_of_finished _ ?_
  simp only [Scanner.step, hdrop]

/-- The step behind some blanks is the step in front of them, further on. -/
theorem step_blanks (opened : List (List Char)) (offset : Nat) (blanks text : List Char)
    (hb : ∀ c ∈ blanks, isSpace c = true) :
    (Scanner.mk offset (blanks ++ text) opened).step =
      (Scanner.mk (offset + byteSize blanks) text opened).step := by
  simp only [Scanner.step, Scanner.bang, Scanner.closing, Scanner.instruction, Scanner.tag,
    List.dropWhile_append_of_pos hb, List.takeWhile_append_of_pos hb, byteSize_append,
    Nat.add_assoc]

theorem scans_blanks_append (opened : List (List Char)) (blanks text : List Char)
    (events : List Event) (hb : ∀ c ∈ blanks, isSpace c = true)
    (h : Scans opened text events) : Scans opened (blanks ++ text) events := by
  intro offset
  rw [← h (offset + byteSize blanks)]
  -- The two scanners take the same step, and from there they are one.
  cases hstep : (Scanner.mk (offset + byteSize blanks) text opened).step with
  | finished =>
      rw [scanRest_of_finished _ hstep,
        scanRest_of_finished _ ((step_blanks opened offset blanks text hb).trans hstep)]
  | failed place fault =>
      rw [Scanner.scanRest, scanFrom, step_blanks opened offset blanks text hb, hstep,
        Scanner.scanRest, scanFrom, hstep]
  | delivered event next =>
      rw [scanRest_of_delivered _ _ _ hstep,
        scanRest_of_delivered _ _ _ ((step_blanks opened offset blanks text hb).trans hstep)]

theorem step_tag (opened : List (List Char)) (offset : Nat) (c : Char) (text : List Char)
    (hbang : c ≠ '!') (hslash : c ≠ '/') (hmark : c ≠ '?') :
    (Scanner.mk offset ('<' :: c :: text) opened).step =
      (Scanner.mk offset ('<' :: c :: text) opened).tag (offset + 1) (c :: text) := by
  have hdrop : ('<' :: c :: text).dropWhile isSpace = '<' :: c :: text :=
    List.dropWhile_cons_of_neg (by decide)
  have htake : ('<' :: c :: text).takeWhile isSpace = [] :=
    List.takeWhile_cons_of_neg (by decide)
  simp only [Scanner.step, hdrop, htake, byteSize_nil, Nat.add_zero]
  -- The name's first character rules out every other construct.
  split
  · rename_i heq; cases heq
  · rename_i heq; cases heq
  · rename_i heq; cases heq; exact absurd rfl hbang
  · rename_i heq; cases heq; exact absurd rfl hslash
  · rename_i heq; cases heq; exact absurd rfl hmark
  · rename_i heq; cases heq; rfl
  · rename_i hno; exact absurd rfl (hno (c :: text))

/-- The content of a written tag, cut out and looked at by its last
    character. -/
theorem step_written_tag (opened : List (List Char)) (offset : Nat) (name content rest : List Char)
    (hname : isName name = true) (huncut : Uncut (name ++ content)) :
    ∃ offset', (Scanner.mk offset ('<' :: (name ++ content ++ '>' :: rest)) opened).step =
      if (name ++ content).getLast? == some '/' then
        .delivered (some (.empty (name ++ content).dropLast)) ⟨offset', rest, opened⟩
      else
        .delivered (some (.opening (name ++ content)))
          ⟨offset', rest, tagName (name ++ content) :: opened⟩ := by
  rcases isName_cases name hname with ⟨c, more, rfl, hbang, hmark, hc⟩
  have hslash := ne_of_isNameChar c '/' hc (by decide)
  have hcut := cutTag?_uncut (c :: more ++ content) rest huncut
  refine ⟨offset + 1 + byteSize (c :: more ++ content) + 1, ?_⟩
  simp only [List.cons_append] at hcut ⊢
  rw [step_tag opened offset c _ hbang hslash hmark, Scanner.tag, hcut]

theorem getLast?_writePairs (name : List Char) (pairs : List (List Char × List Char))
    (hname : isName name = true) : (name ++ writePairs pairs).getLast? ≠ some '/' := by
  rcases List.eq_nil_or_concat pairs with rfl | ⟨init, p, rfl⟩
  · rw [writePairs, List.flatMap_nil, List.append_nil]
    intro hlast
    have hmem := List.mem_of_getLast? hlast
    exact ne_of_isNameChar '/' '/' (isNameChar_of_isName name hname '/' hmem) (by decide) rfl
  · -- The last pair ends with its closing quote.
    have hwrite : name ++ writePairs (init ++ [p]) =
        name ++ writePairs init ++ (' ' :: p.1 ++ '=' :: '"' :: p.2) ++ ['"'] := by
      simp only [writePairs, List.flatMap_append, List.flatMap_cons, List.flatMap_nil,
        List.append_nil, List.append_assoc, List.cons_append]
    rw [List.concat_eq_append, hwrite, List.getLast?_concat]
    decide

/-- An opening tag opens its name and yields its content. -/
theorem scans_opening (opened : List (List Char)) (name : List Char)
    (pairs : List (List Char × List Char)) (rest : List Char) (events : List Event)
    (hname : isName name = true) (hkeys : ∀ p ∈ pairs, ∀ c ∈ p.1, isNameChar c = true)
    (hvalues : ∀ p ∈ pairs, ∀ c ∈ p.2, c ≠ '"') (h : Scans (name :: opened) rest events) :
    Scans opened ('<' :: (name ++ writePairs pairs ++ '>' :: rest))
      (.opening (name ++ writePairs pairs) :: events) := by
  have hchars := isNameChar_of_isName name hname
  have huncut := uncut_append _ _ (uncut_name name hchars) (uncut_writePairs pairs hkeys hvalues)
  refine scans_of_step opened (name :: opened) _ rest
    (some (.opening (name ++ writePairs pairs))) events (fun offset => ?_) h
  rcases step_written_tag opened offset name _ rest hname huncut with ⟨offset', hstep⟩
  refine ⟨offset', ?_⟩
  rw [hstep, if_neg (by rw [beq_iff_eq]; exact getLast?_writePairs name pairs hname),
    tagName_append_writePairs name pairs hchars]

/-- A tag that closes itself yields its content without the slash. -/
theorem scans_empty (opened : List (List Char)) (name : List Char)
    (pairs : List (List Char × List Char)) (rest : List Char) (events : List Event)
    (hname : isName name = true) (hkeys : ∀ p ∈ pairs, ∀ c ∈ p.1, isNameChar c = true)
    (hvalues : ∀ p ∈ pairs, ∀ c ∈ p.2, c ≠ '"') (h : Scans opened rest events) :
    Scans opened ('<' :: (name ++ (writePairs pairs ++ ['/']) ++ '>' :: rest))
      (.empty (name ++ writePairs pairs) :: events) := by
  have hchars := isNameChar_of_isName name hname
  -- The slash is part of what is cut out, and tells the tag apart afterwards.
  have hslash : Uncut ['/'] := uncut_singleton '/' (by decide) (by decide) (by decide)
  have huncut := uncut_append _ _ (uncut_name name hchars)
    (uncut_append _ _ (uncut_writePairs pairs hkeys hvalues) hslash)
  refine scans_of_step opened opened _ rest
    (some (.empty (name ++ writePairs pairs))) events (fun offset => ?_) h
  rcases step_written_tag opened offset name _ rest hname huncut with ⟨offset', hstep⟩
  refine ⟨offset', ?_⟩
  rw [hstep, ← List.append_assoc, List.getLast?_concat, List.dropLast_concat,
    if_pos (by rw [beq_iff_eq])]

theorem cutAtBracket_append (content rest : List Char) (h : ∀ c ∈ content, c ≠ '>') :
    cutAtBracket (content ++ '>' :: rest) = (content, byteSize content + 1, rest) := by
  have hall : ∀ c ∈ content, (c != '>') = true := fun c hc => bne_iff_ne.mpr (h c hc)
  rw [cutAtBracket, List.dropWhile_append_of_pos hall, List.takeWhile_append_of_pos hall,
    List.dropWhile_cons_of_neg (by decide), List.takeWhile_cons_of_neg (by decide),
    List.append_nil]

theorem scans_closing (opened : List (List Char)) (name rest : List Char) (events : List Event)
    (hname : isName name = true) (h : Scans opened rest events) :
    Scans (name :: opened) ('<' :: '/' :: (name ++ '>' :: rest)) (.closing :: events) := by
  have hchars := isNameChar_of_isName name hname
  have hbracket : ∀ c ∈ '/' :: name, c ≠ '>' := by
    intro c hc
    rcases List.mem_cons.mp hc with rfl | hc
    · decide
    · exact ne_of_isNameChar c '>' (hchars c hc) (by decide)
  -- The name holds no blank, so trimming leaves it alone.
  have hspace : ∀ c ∈ name, isSpace c = false :=
    fun c hc => not_isSpace_of_isNameChar c (hchars c hc)
  have hsome : name.all isSpace = false := by
    rcases isName_cases name hname with ⟨c, more, rfl, _, _, hc⟩
    rw [List.all_cons, not_isSpace_of_isNameChar c hc, Bool.false_and]
  have htrim : trimSpaceEnd name = name := by
    have hrev : name.reverse.dropWhile isSpace = name.reverse := by
      refine List.dropWhile_eq_self_iff.mpr (fun hlen => ?_)
      rw [Bool.not_eq_true]
      exact hspace _ (List.mem_reverse.mp (List.getElem_mem hlen))
    rw [trimSpaceEnd, hrev, List.reverse_reverse]
  have hcut := cutAtBracket_append ('/' :: name) rest hbracket
  rw [List.cons_append] at hcut
  refine scans_of_step (name :: opened) opened _ rest (some .closing) events (fun offset => ?_) h
  refine ⟨offset + 1 + (byteSize ('/' :: name) + 1), ?_⟩
  have hlead : ('<' :: '/' :: (name ++ '>' :: rest)).dropWhile isSpace =
      '<' :: '/' :: (name ++ '>' :: rest) := List.dropWhile_cons_of_neg (by decide)
  have hnone : ('<' :: '/' :: (name ++ '>' :: rest)).takeWhile isSpace = [] :=
    List.takeWhile_cons_of_neg (by decide)
  simp only [Scanner.step, hlead, hnone, byteSize_nil, Nat.add_zero, Scanner.closing, hcut,
    List.drop_one, List.tail_cons, hsome, Bool.false_eq_true, if_false, htrim, beq_self_eq_true,
    if_true]

/-- What a run of text yields: nothing if it is blank, and otherwise the text
    without the blanks around it. -/
def textEvents (raw : List Char) : List Event :=
  if raw.all isSpace then [] else [.text (trimSpace raw)]

/-- Something that is neither a blank nor a bracket starts a text. -/
theorem step_text (opened : List (List Char)) (offset : Nat) (c : Char) (text : List Char)
    (hspace : isSpace c = false) (hc : c ≠ '<') :
    (Scanner.mk offset (c :: text) opened).step =
      .delivered (some (.text (trimSpaceEnd ((c :: text).takeWhile (· != '<')))))
        ⟨offset + byteSize ((c :: text).takeWhile (· != '<')),
          (c :: text).dropWhile (· != '<'), opened⟩ := by
  have hdrop : (c :: text).dropWhile isSpace = c :: text :=
    List.dropWhile_cons_of_neg (by rw [hspace]; decide)
  have htake : (c :: text).takeWhile isSpace = [] :=
    List.takeWhile_cons_of_neg (by rw [hspace]; decide)
  simp only [Scanner.step, hdrop, htake, byteSize_nil, Nat.add_zero]
  split
  · rename_i heq; cases heq
  · rename_i heq; cases heq; exact absurd rfl hc
  · rename_i heq; cases heq; exact absurd rfl hc
  · rename_i heq; cases heq; exact absurd rfl hc
  · rename_i heq; cases heq; exact absurd rfl hc
  · rename_i heq; cases heq; exact absurd rfl hc
  · rfl

/-- Text up to the next tag. -/
theorem scans_text (opened : List (List Char)) (raw rest : List Char) (events : List Event)
    (hraw : ∀ c ∈ raw, c ≠ '<') (h : Scans opened ('<' :: rest) events) :
    Scans opened (raw ++ '<' :: rest) (textEvents raw ++ events) := by
  rw [textEvents]
  split
  · rename_i hall
    rw [List.all_eq_true] at hall
    exact scans_blanks_append opened raw _ events hall h
  · rename_i hall
    have hsplit : raw.takeWhile isSpace ++ raw.dropWhile isSpace = raw :=
      List.takeWhile_append_dropWhile
    have hblanks : ∀ c ∈ raw.takeWhile isSpace, isSpace c = true :=
      fun c hc => List.mem_takeWhile_imp hc
    cases htext : raw.dropWhile isSpace with
    | nil => exact absurd (List.all_eq_true.mpr (List.dropWhile_eq_nil_iff.mp htext)) hall
    | cons c text =>
        -- The blanks in front go by themselves; the text starts behind them.
        have hspace : isSpace c = false := by
          have := List.head?_dropWhile_not isSpace raw
          rw [htext] at this
          simpa only [List.head?_cons, Bool.not_eq_true] using this
        have hrun : ∀ d ∈ c :: text, (d != '<') = true := by
          intro d hd
          rw [bne_iff_ne]
          refine hraw d ?_
          rw [← hsplit, htext]
          exact List.mem_append_right _ hd
        have hc : c ≠ '<' := bne_iff_ne.mp (hrun c List.mem_cons_self)
        have htake : (c :: (text ++ '<' :: rest)).takeWhile (· != '<') = c :: text := by
          rw [← List.cons_append, List.takeWhile_append_of_pos hrun,
            List.takeWhile_cons_of_neg (by decide), List.append_nil]
        have hdrop : (c :: (text ++ '<' :: rest)).dropWhile (· != '<') = '<' :: rest := by
          rw [← List.cons_append, List.dropWhile_append_of_pos hrun,
            List.dropWhile_cons_of_neg (by decide)]
        have hscan : Scans opened (c :: (text ++ '<' :: rest))
            ((some (Event.text (trimSpace raw))).toList ++ events) := by
          refine scans_of_step opened opened _ ('<' :: rest) _ events (fun offset => ?_) h
          refine ⟨offset + byteSize (c :: text), ?_⟩
          rw [step_text opened offset c _ hspace hc, htake, hdrop, trimSpace, htext]
        have hfront := scans_blanks_append opened _ _ _ hblanks hscan
        rw [← List.cons_append, ← htext, ← List.append_assoc, hsplit] at hfront
        exact hfront

theorem length_le_byteSize (s : List Char) : s.length ≤ byteSize s := by
  induction s with
  | nil => exact Nat.le_refl 0
  | cons c s ih =>
      have := c.utf8Size_pos
      rw [List.length_cons, byteSize_cons]
      omega

/-- An instruction that starts with `xml` and a blank is a declaration. -/
theorem scans_declaration (opened : List (List Char)) (inside rest : List Char)
    (events : List Event) (hxml : "xml".toList.isPrefixOf inside = true)
    (hblank : inside[3]?.any isSpace = true) (hinside : ∀ c ∈ inside, c ≠ '>')
    (h : Scans opened rest events) :
    Scans opened ('<' :: '?' :: (inside ++ '?' :: '>' :: rest))
      (.declaration inside :: events) := by
  have hbracket : ∀ c ∈ '?' :: (inside ++ ['?']), c ≠ '>' := by
    intro c hc
    rcases List.mem_cons.mp hc with rfl | hc
    · decide
    · rcases List.mem_append.mp hc with hc | hc
      · exact hinside c hc
      · rw [List.mem_singleton.mp hc]
        decide
  have hcut := cutAtBracket_append _ rest hbracket
  rw [List.cons_append, List.append_assoc, List.cons_append, List.nil_append] at hcut
  -- The blank behind `xml` makes the content long enough to be one.
  have hlarge : 5 < byteSize ('?' :: (inside ++ ['?'])) := by
    have hlt : 3 < inside.length := by
      by_contra hge
      rw [List.getElem?_eq_none (by omega)] at hblank
      exact absurd hblank (by decide)
    have hle := length_le_byteSize ('?' :: (inside ++ ['?']))
    rw [List.length_cons, List.length_append, List.length_singleton] at hle
    omega
  have hlast : ('?' :: (inside ++ ['?'])).getLast? = some '?' := by
    rw [← List.cons_append, List.getLast?_concat]
  refine scans_of_step opened opened _ rest (some (.declaration inside)) events
    (fun offset => ?_) h
  refine ⟨offset + 1 + (byteSize ('?' :: (inside ++ ['?'])) + 1), ?_⟩
  have hlead : ('<' :: '?' :: (inside ++ '?' :: '>' :: rest)).dropWhile isSpace =
      '<' :: '?' :: (inside ++ '?' :: '>' :: rest) := List.dropWhile_cons_of_neg (by decide)
  have hnone : ('<' :: '?' :: (inside ++ '?' :: '>' :: rest)).takeWhile isSpace = [] :=
    List.takeWhile_cons_of_neg (by decide)
  simp only [Scanner.step, hlead, hnone, byteSize_nil, Nat.add_zero, Scanner.instruction, hcut,
    hlast, List.drop_one, List.tail_cons, List.dropLast_concat, hxml, hblank, beq_self_eq_true,
    Bool.and_true, decide_eq_true hlarge, if_true,
    decide_eq_true (show 2 < byteSize ('?' :: (inside ++ ['?'])) by omega)]

end SchemaRename.Markup
