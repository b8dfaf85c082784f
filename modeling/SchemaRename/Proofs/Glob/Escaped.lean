import SchemaRename.Glob.Walk
import SchemaRename.Proofs.FileTree.PathSteps

/-!
# Patterns for the Entries of a Folder

What a pattern means that is made of a path and stars.

Escaping puts every character that could be a wildcard into brackets, so an
escaped path with some stars behind it is never refused. It is read piece by
piece: each piece of the path becomes a step that fits the piece itself and
nothing else, and each star a step that fits every name.

A step with brackets is no literal for the search, which then looks through
the folder for it. That makes no difference to what is found, but it is why
the steps are described by what fits them and not by their text.

## Main definitions

* `ReadsAs`: How a text is read wherever it stands.
* `Step.escaped`, `Step.star`: The steps of a piece and of a star.
* `stars`: Some stars, each behind a slash.
* `startOf`, `piecesBehind`: Where the search for a path starts, and its
  pieces.

## Theorems

* `readsAs_escape`: An escaped text is read character by character.
* `fits_escaped`: Only the piece itself fits its step.
* `search_escape`: The search behind an escaped path with stars.
-/

namespace SchemaRename.Glob

/-- Whether a character is put into brackets. -/
def isWild (c : Char) : Bool :=
  c == '?' || c == '*' || c == '[' || c == ']'

/-- The pattern of one character. -/
def spell (c : Char) : List Char :=
  if isWild c then ['[', c, ']'] else [c]

/-- The part that the pattern of one character is read as. -/
def escapedToken (c : Char) : Token :=
  if isWild c then .oneOf false [(c, c)] else .char c

theorem toList_escape (text : String) : (escape text).toList = text.toList.flatMap spell := by
  rw [escape, String.toList_ofList]
  rfl

/-- A text that is read as the given parts wherever it stands, as long as there
    is fuel for all of it. -/
def ReadsAs (text : List Char) (parts : List Token) : Prop :=
  ∀ fuel position atStart, text.length ≤ fuel →
    tokensFrom fuel position atStart text = .ok parts

theorem readsAs_nil : ReadsAs [] [] := by
  intro fuel position atStart _
  cases fuel <;> rfl

theorem ReadsAs.tokens {text : List Char} {parts : List Token} (h : ReadsAs text parts) :
    tokens text = .ok parts :=
  h text.length 0 true (Nat.le_refl _)

/-- A character that is no wildcard. -/
theorem ReadsAs.char {text : List Char} {parts : List Token} (h : ReadsAs text parts) (c : Char)
    (hc : isWild c = false) : ReadsAs (c :: text) (.char c :: parts) := by
  intro fuel position atStart hfuel
  simp only [isWild, Bool.or_eq_false_iff, beq_eq_false_iff_ne] at hc
  obtain ⟨⟨⟨hquestion, hstar⟩, hbracket⟩, -⟩ := hc
  cases fuel with
  | zero => simp at hfuel
  | succ fuel =>
      have hrest := h fuel (position + 1) (c == '/') (by simpa using hfuel)
      rw [tokensFrom]
      · simp [hrest, bind, Except.bind, pure, Except.pure]
      · exact hquestion
      · exact hstar
      · exact hbracket

/-- A character in brackets. -/
theorem ReadsAs.bracketed {text : List Char} {parts : List Token} (h : ReadsAs text parts)
    (c : Char) (hc : isWild c = true) :
    ReadsAs ('[' :: c :: ']' :: text) (.oneOf false [(c, c)] :: parts) := by
  intro fuel position atStart hfuel
  have hbracketed : bracketed? (c :: ']' :: text) = some (false, [c], text) := by
    rw [bracketed?]
    · simp [bracketed?.close]
    · rintro first rest rfl
      exact absurd hc (by decide)
    · rintro rfl
      exact absurd hc (by decide)
  cases fuel with
  | zero => simp at hfuel
  | succ fuel =>
      simp only [List.length_cons, Nat.add_le_add_iff_right] at hfuel
      have hrest := h fuel (position + ((c :: ']' :: text).length + 1 - text.length)) false
        (by omega)
      rw [tokensFrom]
      simp only [hbracketed, hrest, bind, Except.bind, pure, Except.pure]
      rfl

/-- A star with no other star behind it. -/
theorem ReadsAs.star {text : List Char} {parts : List Token} (h : ReadsAs text parts)
    (hstar : text.head? ≠ some '*') : ReadsAs ('*' :: text) (.anyRun :: parts) := by
  intro fuel position atStart hfuel
  have hstop : text.takeWhile (· == '*') = [] ∧ text.dropWhile (· == '*') = text := by
    cases text with
    | nil => exact ⟨rfl, rfl⟩
    | cons c text =>
        have hc : (c == '*') = false := by simpa using hstar
        simp [hc]
  cases fuel with
  | zero => simp at hfuel
  | succ fuel =>
      have hrest := h fuel (position + 1) false (by simpa using hfuel)
      rw [tokensFrom]
      simp [hstop.1, hstop.2, hrest, bind, Except.bind, pure, Except.pure]

/-- An escaped text is read character by character. -/
theorem readsAs_escape (text : List Char) {rest : List Char} {parts : List Token}
    (h : ReadsAs rest parts) :
    ReadsAs (text.flatMap spell ++ rest) (text.map escapedToken ++ parts) := by
  induction text with
  | nil => exact h
  | cons c text ih =>
      rw [List.flatMap_cons, List.map_cons, spell, escapedToken]
      cases hc : isWild c with
      | true => exact ih.bracketed c hc
      | false => exact ih.char c hc

/-- Some stars, each behind a slash. -/
def stars (n : Nat) : List Char :=
  (List.replicate n ['/', '*']).flatten

theorem stars_succ (n : Nat) : stars (n + 1) = '/' :: '*' :: stars n :=
  rfl

/-- Stars behind slashes are read one by one. -/
theorem readsAs_stars (n : Nat) : ∃ parts, ReadsAs (stars n) parts := by
  induction n with
  | zero => exact ⟨[], readsAs_nil⟩
  | succ n ih =>
      obtain ⟨parts, hparts⟩ := ih
      have hstar : (stars n).head? ≠ some '*' := by
        cases n with
        | zero => simp [stars]
        | succ n => simp [stars_succ]
      exact ⟨_, (hparts.star hstar).char '/' (by decide)⟩

/-- The step of a piece. -/
def Step.escaped (piece : String) : Step :=
  ⟨piece.toList.map escapedToken⟩

/-- The step of a star. -/
def Step.star : Step :=
  ⟨[.anyRun]⟩

theorem fits_escapedToken (c d : Char) : (escapedToken c).fits d = true ↔ d = c := by
  rw [escapedToken]
  split
  · simp only [Token.fits, List.any_cons, List.any_nil, Bool.or_false, Bool.bne_false,
      Bool.and_eq_true, decide_eq_true_eq]
    exact ⟨fun h => Char.le_antisymm h.2 h.1, fun h => h ▸ ⟨Char.le_refl d, Char.le_refl d⟩⟩
  · simp [Token.fits]

/-- Only the piece itself fits its step. -/
theorem fits_escaped (piece name : String) :
    (Step.escaped piece).fits name = true ↔ name = piece := by
  have hlist : ∀ cs ds : List Char, fitsName (cs.map escapedToken) ds = true ↔ ds = cs := by
    intro cs
    induction cs with
    | nil =>
        intro ds
        cases ds <;> simp [fitsName]
    | cons c cs ih =>
        intro ds
        have hc : escapedToken c ≠ .anyRun ∧ escapedToken c ≠ .anyFolders := by
          rw [escapedToken]
          split <;> simp
        cases ds with
        | nil =>
            rw [List.map_cons, fitsName]
            · simp
            · exact hc.1
            · exact hc.2
        | cons d ds =>
            rw [List.map_cons, fitsName, Bool.and_eq_true, fits_escapedToken, ih, List.cons.injEq]
            · exact hc.1
            · exact hc.2
  rw [Step.fits, Step.escaped, hlist, String.toList_inj]

theorem isRecursive_escaped (piece : String) : (Step.escaped piece).isRecursive = false := by
  rw [Step.isRecursive, Step.escaped, List.contains_eq_mem, decide_eq_false_iff_not]
  intro hmem
  obtain ⟨c, -, hc⟩ := List.mem_map.mp hmem
  rw [escapedToken] at hc
  split at hc <;> cases hc

/-- The text of a piece without brackets is the piece. -/
theorem literal?_escaped (piece name : String)
    (h : (Step.escaped piece).literal? = some name) : name = piece := by
  have hlist : ∀ cs ds : List Char, (cs.map escapedToken).mapM Token.char? = some ds →
      ds = cs := by
    intro cs
    induction cs with
    | nil =>
        intro ds hds
        simpa using hds.symm
    | cons c cs ih =>
        intro ds hds
        rw [List.map_cons, List.mapM_cons, escapedToken] at hds
        split at hds
        · simp [Token.char?] at hds
        · simp only [Token.char?, Option.pure_def, Option.bind_eq_bind, Option.bind_some,
            Option.bind_eq_some_iff, Option.some.injEq] at hds
          obtain ⟨others, hothers, rfl⟩ := hds
          rw [ih others hothers]
  rw [Step.literal?, Option.map_eq_some_iff] at h
  obtain ⟨cs, hcs, rfl⟩ := h
  rw [hlist piece.toList cs hcs, String.ofList_toList]

theorem fits_star (name : String) : Step.star.fits name = true := by
  have hlist : ∀ cs : List Char, anyEnding (fitsName []) cs = true := by
    intro cs
    induction cs with
    | nil => rfl
    | cons c cs ih => simp [anyEnding, ih]
  exact hlist name.toList

/-- Where the search for a path starts. -/
def startOf (p : Path) : Path :=
  ⟨if p.isAbsolute then "/" else "."⟩

/-- The pieces of a path behind its start. -/
def piecesBehind (p : Path) : List String :=
  if p.isAbsolute then p.pieces.tail else p.pieces

theorem splitOn_stars (text : List Char) (n : Nat) :
    (text ++ stars n).splitOn '/' = text.splitOn '/' ++ List.replicate n ['*'] := by
  induction n generalizing text with
  | zero => simp [stars]
  | succ n ih =>
      rw [stars_succ, List.splitOn_append_cons_self,
        show '*' :: stars n = ['*'] ++ stars n from rfl, ih, List.replicate_succ]
      rfl

theorem splitOn_spell (text : List Char) :
    (text.flatMap spell).splitOn '/' = (text.splitOn '/').map (·.flatMap spell) := by
  refine Text.splitOn_flatMap '/' spell (by decide) ?_ text
  intro c hc
  rw [spell]
  split
  · simp [Ne.symm hc]
  · simp [Ne.symm hc]

/-- An escaped text with stars behind it is cut into the text's pieces, escaped,
    and the stars. -/
theorem cutAtSlashes_stars (text : List Char) (n : Nat) :
    cutAtSlashes (text.flatMap spell ++ stars (n + 1)) =
      (text.splitOn '/').map (·.flatMap spell) ++ List.replicate (n + 1) ['*'] := by
  rw [cutAtSlashes, splitOn_stars, splitOn_spell, if_neg]
  rw [List.replicate_succ', ← List.append_assoc, List.getLast?_concat]
  simp

theorem mapM_tokens (texts : List (List Char)) (parts : List Char → List Token)
    (h : ∀ text ∈ texts, ReadsAs text (parts text)) :
    (texts.mapM fun text => return Step.mk (← tokens text) : Except Fault (List Step)) =
      .ok (texts.map fun text => ⟨parts text⟩) := by
  induction texts with
  | nil => rfl
  | cons text texts ih =>
      rw [List.mapM_cons, (h text List.mem_cons_self).tokens,
        ih fun text htext => h text (List.mem_cons_of_mem _ htext)]
      rfl

/-- The steps of escaped pieces. -/
theorem steps_spell (pieces : List (List Char)) :
    ((pieces.map (·.flatMap spell)).mapM
        fun piece => return Step.mk (← tokens piece) : Except Fault (List Step)) =
      .ok ((pieces.map String.ofList).map Step.escaped) := by
  induction pieces with
  | nil => rfl
  | cons piece pieces ih =>
      have hpiece := readsAs_escape piece readsAs_nil
      rw [List.append_nil, List.append_nil] at hpiece
      rw [List.map_cons, List.mapM_cons, hpiece.tokens, ih, List.map_cons, List.map_cons,
        Step.escaped, String.toList_ofList]
      rfl

/-- The steps of an escaped text with stars behind it. -/
theorem steps_stars (text : List Char) (n : Nat) :
    ((cutAtSlashes (text.flatMap spell ++ stars (n + 1))).mapM
        fun piece => return Step.mk (← tokens piece) : Except Fault (List Step)) =
      .ok (((text.splitOn '/').map String.ofList).map Step.escaped ++
        List.replicate (n + 1) Step.star) := by
  have hstars : ((List.replicate (n + 1) ['*']).mapM
      fun piece => return Step.mk (← tokens piece) : Except Fault (List Step)) =
        .ok (List.replicate (n + 1) Step.star) := by
    rw [mapM_tokens _ (fun _ => [.anyRun]) fun text htext => by
      rw [List.eq_of_mem_replicate htext]
      exact readsAs_nil.star (by simp)]
    simp [Step.star]
  rw [cutAtSlashes_stars, List.mapM_append, steps_spell, hstars]
  rfl

theorem piecesBehind_of_isAbsolute (p : Path) (h : p.isAbsolute = true) :
    ∃ tail, p.text.toList = '/' :: tail ∧
      piecesBehind p = (tail.splitOn '/').map String.ofList := by
  rw [Path.isAbsolute, beq_iff_eq, List.head?_eq_some_iff] at h
  obtain ⟨tail, htail⟩ := h
  refine ⟨tail, htail, ?_⟩
  have hcut := List.splitOn_append_cons_self (a := '/') [] tail
  rw [List.nil_append, List.splitOn_nil] at hcut
  rw [piecesBehind, if_pos (by rw [Path.isAbsolute, htail]; rfl), Path.pieces, htail, hcut]
  rfl

/-- The search behind an escaped path with stars. -/
theorem search_escape (p : Path) (hp : p.text ≠ "") (n : Nat) :
    search (escape p.text ++ String.ofList (stars (n + 1))) =
      .ok ⟨(piecesBehind p).map Step.escaped ++ List.replicate (n + 1) Step.star, startOf p,
        false⟩ := by
  obtain ⟨parts, hparts⟩ := readsAs_stars (n + 1)
  have htext : (escape p.text ++ String.ofList (stars (n + 1))).toList =
      p.text.toList.flatMap spell ++ stars (n + 1) := by
    rw [String.toList_append, toList_escape, String.toList_ofList]
  have hlast : (p.text.toList.flatMap spell ++ stars (n + 1)).getLast? ≠ some '/' := by
    have hstars : stars (n + 1) = stars n ++ ['/', '*'] := by
      rw [stars, List.replicate_succ', List.flatten_append]
      rfl
    rw [hstars, ← List.append_assoc, List.getLast?_append]
    simp
  rw [search]
  simp only [htext, (readsAs_escape p.text.toList hparts).tokens, bind, Except.bind]
  rw [beq_eq_false_iff_ne.mpr hlast]
  cases habsolute : p.isAbsolute with
  | true =>
      obtain ⟨tail, htail, hpieces⟩ := piecesBehind_of_isAbsolute p habsolute
      have hspell : ('/' :: tail).flatMap spell = '/' :: tail.flatMap spell := rfl
      have hne : (tail.flatMap spell ++ stars (n + 1)).isEmpty = false := by
        rw [stars_succ]
        simp
      rw [htail, hspell]
      simp only [List.cons_append, List.head?_cons, beq_self_eq_true, if_true, List.tail_cons,
        hne, Bool.and_false, Bool.false_eq_true, if_false]
      have hsteps := steps_stars tail n
      simp only [bind, Except.bind] at hsteps
      rw [hsteps, ← hpieces, startOf, habsolute]
      rfl
  | false =>
      have hhead : ((p.text.toList.flatMap spell ++ stars (n + 1)).head? == some '/') = false := by
        cases htoList : p.text.toList with
        | nil => exact absurd (String.toList_eq_nil_iff.mp htoList) hp
        | cons c rest =>
            have hc : c ≠ '/' := by
              rintro rfl
              rw [Path.isAbsolute, htoList] at habsolute
              simp at habsolute
            rw [List.flatMap_cons, spell]
            split <;> simp [hc]
      rw [hhead]
      simp only [Bool.false_eq_true, if_false, Bool.false_and]
      have hsteps := steps_stars p.text.toList n
      simp only [bind, Except.bind] at hsteps
      rw [hsteps, startOf, habsolute, piecesBehind, habsolute]
      rfl

end SchemaRename.Glob
