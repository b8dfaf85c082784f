import SchemaRename.Markup.Writer
import SchemaRename.Proofs.Markup.References

/-!
# Written Tags Read Back

A tag is cut out of a document and then taken apart, in two passes that know
nothing of each other.

The first pass looks for the closing angle bracket and minds only quotes. The
second looks for keys, equals signs and values. Both get through a written
tag for the same reason: a name holds neither a quote nor an angle bracket
nor a blank nor an equals sign, and a value, which may hold all of these but
the quote, stands in quotes.

The pairs of a tag are treated here without regard to where they come from.
An element's attributes are escaped and a declaration's values are not, but
both are pairs of a key and a value that holds no quote.

## Main definitions

* `isNameChar`, `isName`: What may stand as a name of an element or a key.
* `writePairs`: Keys and values as a tag holds them.
* `attributePairs`: The pairs that attributes are written as.
* `Uncut`: Texts that the search for the end of a tag passes over.

## Theorems

* `uncut_append`, `uncut_of_plain`, `uncut_quoted`: What is passed over.
* `cutTag?_uncut`: A tag is cut at the bracket behind it.
* `readKey_written`, `readValue_written`: One key and one value.
* `listFrom_writePairs`: Written pairs are listed as they were written.
* `writeAttributes_eq`: Attributes are written as pairs.
* `tagName_append_writePairs`: The name of a tag ends where its pairs start.
-/

namespace SchemaRename.Markup

open SchemaRename.Text

/-- A character that may stand in a name: above the blank, and none that a
    tag gives a meaning to. -/
def isNameChar (c : Char) : Bool :=
  0x20 < c.toNat && !(['<', '>', '/', '=', '\'', '"', '&'].contains c)

/-- A name: not empty, made of name characters, and not to be taken for a
    comment or an instruction. -/
def isName (s : List Char) : Bool :=
  !s.isEmpty && s.all isNameChar && s.head? != some '!' && s.head? != some '?'

/-- Keys and values as a tag holds them. -/
def writePairs (pairs : List (List Char × List Char)) : List Char :=
  pairs.flatMap fun (key, value) => ' ' :: key ++ '=' :: '"' :: value ++ ['"']

/-- The pairs that attributes are written as. -/
def attributePairs (attributes : List (String × String)) : List (List Char × List Char) :=
  attributes.map fun a => (a.1.toList, escape a.2.toList)

theorem writePairs_cons (key value : List Char) (pairs : List (List Char × List Char)) :
    writePairs ((key, value) :: pairs) =
      ' ' :: (key ++ '=' :: '"' :: (value ++ '"' :: writePairs pairs)) := by
  simp only [writePairs, List.flatMap_cons, List.cons_append, List.append_assoc, List.nil_append]

theorem writeAttributes_eq (attributes : List (String × String)) :
    writeAttributes attributes = writePairs (attributePairs attributes) := by
  simp only [writeAttributes, writePairs, attributePairs, List.flatMap_map]

theorem ne_of_isNameChar (c d : Char) (h : isNameChar c = true)
    (hd : d ∈ ['<', '>', '/', '=', '\'', '"', '&']) : c ≠ d := by
  intro hcd
  subst hcd
  have hc : ['<', '>', '/', '=', '\'', '"', '&'].contains c = true :=
    List.contains_iff_mem.mpr hd
  rw [isNameChar, hc, Bool.not_true, Bool.and_false] at h
  exact Bool.false_ne_true h

theorem not_isSpace_of_isNameChar (c : Char) (h : isNameChar c = true) : isSpace c = false := by
  rw [isNameChar, Bool.and_eq_true, decide_eq_true_eq] at h
  rw [Bool.eq_false_iff]
  intro hs
  simp only [isSpace, Bool.or_eq_true, beq_iff_eq] at hs
  rcases hs with ((rfl | rfl) | rfl) | rfl <;> exact absurd h.1 (by decide)

theorem isNameChar_of_isName (s : List Char) (h : isName s = true) :
    ∀ c ∈ s, isNameChar c = true := by
  simp only [isName, Bool.and_eq_true, List.all_eq_true] at h
  exact h.1.1.2

/-- A name taken apart: its first character starts neither a comment nor an
    instruction, and like the others it is a name character. -/
theorem isName_cases (s : List Char) (h : isName s = true) :
    ∃ c rest, s = c :: rest ∧ c ≠ '!' ∧ c ≠ '?' ∧ isNameChar c = true := by
  cases s with
  | nil => exact absurd h (by decide)
  | cons c rest =>
      have hc := isNameChar_of_isName (c :: rest) h c List.mem_cons_self
      simp only [isName, Bool.and_eq_true, List.head?_cons, bne_iff_ne, ne_eq,
        Option.some.injEq] at h
      exact ⟨c, rest, rfl, h.1.2, h.2, hc⟩

/-- Texts that the search for the end of a tag passes over, ending outside
    quotes as it began. -/
def Uncut (s : List Char) : Prop :=
  ∀ rest, cutTag? none (s ++ rest) =
    (cutTag? none rest).map fun (content, after) => (s ++ content, after)

theorem uncut_nil : Uncut [] := by
  intro rest
  rw [List.nil_append]
  cases cutTag? none rest with
  | none => rfl
  | some cut => rfl

theorem uncut_append (s t : List Char) (hs : Uncut s) (ht : Uncut t) : Uncut (s ++ t) := by
  intro rest
  rw [List.append_assoc, hs, ht, Option.map_map]
  simp only [Function.comp_def, List.append_assoc]

theorem uncut_singleton (c : Char) (hb : c ≠ '>') (hq : c ≠ '"') (ha : c ≠ '\'') :
    Uncut [c] := by
  intro rest
  simp only [List.cons_append, List.nil_append, cutTag?, beq_iff_eq, hb, hq, ha, if_false,
    Bool.or_eq_true, or_self]

theorem uncut_of_plain (s : List Char) (h : ∀ c ∈ s, c ≠ '>' ∧ c ≠ '"' ∧ c ≠ '\'') :
    Uncut s := by
  induction s with
  | nil => exact uncut_nil
  | cons c s ih =>
      rcases h c List.mem_cons_self with ⟨hb, hq, ha⟩
      have hs := ih (fun d hd => h d (List.mem_cons_of_mem c hd))
      exact uncut_append [c] s (uncut_singleton c hb hq ha) hs

/-- Inside quotes the search minds nothing but the closing quote. -/
theorem cutTag?_inside (value rest : List Char) (h : ∀ c ∈ value, c ≠ '"') :
    cutTag? (some '"') (value ++ '"' :: rest) =
      (cutTag? none rest).map fun (content, after) => (value ++ '"' :: content, after) := by
  induction value with
  | nil => simp only [List.nil_append, cutTag?, beq_self_eq_true, if_true]
  | cons c value ih =>
      have hc : ¬ (c == '"') = true := by
        rw [beq_iff_eq]
        exact h c List.mem_cons_self
      have hrest := ih (fun d hd => h d (List.mem_cons_of_mem c hd))
      simp only [List.cons_append, cutTag?, if_neg hc, hrest, Option.map_map,
        Function.comp_def]

theorem uncut_quoted (value : List Char) (h : ∀ c ∈ value, c ≠ '"') :
    Uncut ('"' :: (value ++ ['"'])) := by
  intro rest
  have hin := cutTag?_inside value rest h
  simp only [List.cons_append, List.append_assoc, List.nil_append]
  rw [cutTag?]
  simp only [Char.reduceBEq, Bool.false_eq_true, if_false, Bool.or_false, if_true, hin,
    Option.map_map, Function.comp_def]

theorem uncut_name (s : List Char) (h : ∀ c ∈ s, isNameChar c = true) : Uncut s := by
  refine uncut_of_plain s (fun c hc => ⟨?_, ?_, ?_⟩)
  · exact ne_of_isNameChar c '>' (h c hc) (by decide)
  · exact ne_of_isNameChar c '"' (h c hc) (by decide)
  · exact ne_of_isNameChar c '\'' (h c hc) (by decide)

/-- The pairs of a tag are passed over: keys are plain and values are in
    quotes. -/
theorem uncut_writePairs (pairs : List (List Char × List Char))
    (hkeys : ∀ p ∈ pairs, ∀ c ∈ p.1, isNameChar c = true)
    (hvalues : ∀ p ∈ pairs, ∀ c ∈ p.2, c ≠ '"') : Uncut (writePairs pairs) := by
  induction pairs with
  | nil => exact uncut_nil
  | cons p pairs ih =>
      rcases p with ⟨key, value⟩
      have hkey := hkeys (key, value) List.mem_cons_self
      have hvalue := hvalues (key, value) List.mem_cons_self
      have hrest := ih (fun p hp => hkeys p (List.mem_cons_of_mem _ hp))
        (fun p hp => hvalues p (List.mem_cons_of_mem _ hp))
      -- A pair is a blank, a key, an equals sign and a quoted value.
      have hlead : Uncut [' '] := uncut_singleton ' ' (by decide) (by decide) (by decide)
      have hequals : Uncut ['='] := uncut_singleton '=' (by decide) (by decide) (by decide)
      have hall := uncut_append _ _ hlead (uncut_append _ _ (uncut_name key hkey)
        (uncut_append _ _ hequals (uncut_append _ _ (uncut_quoted value hvalue) hrest)))
      rw [writePairs_cons]
      simpa only [List.cons_append, List.nil_append, List.append_assoc] using hall

theorem cutTag?_uncut (s rest : List Char) (h : Uncut s) :
    cutTag? none (s ++ '>' :: rest) = some (s, rest) := by
  rw [h]
  simp only [cutTag?, beq_self_eq_true, if_true, Option.map_some, List.append_nil]

theorem readKey_written (position : List Char → Nat) (more rest : List Char)
    (h : ∀ c ∈ more, isNameChar c = true) :
    readKey position (more ++ '=' :: rest) = .ok (more, rest) := by
  have hends : ∀ c ∈ more, (!(c == '=' || isSpace c)) = true := by
    intro c hc
    have hne := ne_of_isNameChar c '=' (h c hc) (by decide)
    have hsp := not_isSpace_of_isNameChar c (h c hc)
    simp only [beq_eq_false_iff_ne.mpr hne, hsp, Bool.or_self, Bool.not_false]
  -- Keys run up to the equals sign, which ends them.
  have hstop : (!('=' == '=' || isSpace '=')) = false := by decide
  simp only [readKey, List.takeWhile_append_of_pos hends, List.dropWhile_append_of_pos hends]
  rw [List.takeWhile_cons_of_neg (by rw [hstop]; decide),
    List.dropWhile_cons_of_neg (by rw [hstop]; decide),
    List.dropWhile_cons_of_neg (by decide)]
  simp only [List.append_nil]

theorem readValue_written (position : List Char → Nat) (value rest : List Char)
    (h : ∀ c ∈ value, c ≠ '"') :
    readValue position ('"' :: (value ++ '"' :: rest)) = .ok (value, rest) := by
  have hall : ∀ c ∈ value, (c != '"') = true := by
    intro c hc
    rw [bne_iff_ne]
    exact h c hc
  rw [readValue, List.dropWhile_cons_of_neg (by decide)]
  simp only [Char.reduceBEq, Bool.or_false, if_true]
  rw [List.dropWhile_append_of_pos hall, List.takeWhile_append_of_pos hall,
    List.dropWhile_cons_of_neg (by decide), List.takeWhile_cons_of_neg (by decide)]
  simp only [List.append_nil]

/-- Written pairs are listed as they were written. Positions are left open:
    they depend on the whole tag and are looked at only when a key comes
    twice. The keys that were seen before are not among the pairs, which is
    what lets the induction pass a key from one list to the other. -/
theorem listFrom_writePairs (position : List Char → Nat) (once : Bool)
    (pairs : List (List Char × List Char))
    (hkeys : ∀ p ∈ pairs, p.1 ≠ [] ∧ ∀ c ∈ p.1, isNameChar c = true)
    (hvalues : ∀ p ∈ pairs, ∀ c ∈ p.2, c ≠ '"') :
    ∀ (fuel : Nat) (seen : List (List Char × Nat)), pairs.length ≤ fuel →
      (once = true → (pairs.map (·.1)).Nodup ∧ ∀ p ∈ pairs, seen.lookup p.1 = none) →
      ∃ listed, listFrom position once fuel seen (writePairs pairs) = ⟨listed, none⟩ ∧
        listed.map (fun a => (a.key, a.value)) = pairs := by
  induction pairs with
  | nil =>
      intro fuel seen _ _
      refine ⟨[], ?_, rfl⟩
      cases fuel with
      | zero => rfl
      | succ fuel => rfl
  | cons p pairs ih =>
      intro fuel seen hfuel hfresh
      rcases p with ⟨key, value⟩
      rcases hkeys (key, value) List.mem_cons_self with ⟨hne, hkey⟩
      have hvalue := hvalues (key, value) List.mem_cons_self
      rcases List.exists_cons_of_ne_nil hne with ⟨first, more, rfl⟩
      cases fuel with
      | zero => exact absurd hfuel (by simp only [List.length_cons]; omega)
      | succ fuel =>
          have hfirst := not_isSpace_of_isNameChar first (hkey first List.mem_cons_self)
          have hmore : ∀ c ∈ more, isNameChar c = true :=
            fun c hc => hkey c (List.mem_cons_of_mem first hc)
          -- The key passes the check for repetitions, because it is fresh.
          have hunseen : (if once then seen.lookup (first :: more) else none) = none := by
            cases once with
            | false => rfl
            | true => exact (hfresh rfl).2 (first :: more, value) List.mem_cons_self
          -- One blank stands in front of a key, and the key starts with none.
          have hdrop : (writePairs ((first :: more, value) :: pairs)).dropWhile isSpace =
              first :: (more ++ '=' :: '"' :: (value ++ '"' :: writePairs pairs)) := by
            rw [writePairs_cons, List.dropWhile_cons_of_pos (by decide), List.cons_append,
              List.dropWhile_cons_of_neg (by rw [hfirst]; decide)]
          -- The keys behind this one differ from it and stay fresh.
          have hnext : ∀ place, once = true → (pairs.map (·.1)).Nodup ∧
              ∀ p ∈ pairs, ((first :: more, place) :: seen).lookup p.1 = none := by
            intro place hon
            rcases hfresh hon with ⟨hnodup, hseen⟩
            rw [List.map_cons, List.nodup_cons] at hnodup
            refine ⟨hnodup.2, fun p hp => ?_⟩
            have hpk : ¬ p.1 = first :: more := by
              intro heq
              exact hnodup.1 (List.mem_map.mpr ⟨p, hp, heq⟩)
            rw [List.lookup_cons, beq_eq_false_iff_ne.mpr hpk]
            exact hseen p (List.mem_cons_of_mem _ hp)
          rcases ih (fun p hp => hkeys p (List.mem_cons_of_mem _ hp))
            (fun p hp => hvalues p (List.mem_cons_of_mem _ hp)) fuel _
            (by simp only [List.length_cons] at hfuel; omega) (hnext (position (first ::
              (more ++ '=' :: '"' :: (value ++ '"' :: writePairs pairs))))) with ⟨listed, hl, hm⟩
          refine ⟨{ key := first :: more, value, position := position (first ::
              (more ++ '=' :: '"' :: (value ++ '"' :: writePairs pairs))) } :: listed, ?_, ?_⟩
          · simp only [listFrom, hdrop, readKey_written position more _ hmore, hunseen,
              readValue_written position value _ hvalue, hl]
          · rw [List.map_cons, hm]

theorem length_le_writePairs (pairs : List (List Char × List Char)) :
    pairs.length ≤ (writePairs pairs).length := by
  induction pairs with
  | nil => exact Nat.le_refl 0
  | cons p pairs ih =>
      rw [writePairs_cons]
      simp only [List.length_cons, List.length_append]
      omega

/-- The name of a tag ends where its pairs start. -/
theorem tagName_append_writePairs (name : List Char) (pairs : List (List Char × List Char))
    (h : ∀ c ∈ name, isNameChar c = true) : tagName (name ++ writePairs pairs) = name := by
  have hname : ∀ c ∈ name, (!isSpace c) = true := by
    intro c hc
    rw [not_isSpace_of_isNameChar c (h c hc)]
    rfl
  rw [tagName, List.takeWhile_append_of_pos hname]
  cases pairs with
  | nil => exact List.append_nil name
  | cons p pairs =>
      rw [writePairs_cons, List.takeWhile_cons_of_neg (by decide), List.append_nil]

theorem listAttributes_writePairs (once : Bool) (name : List Char)
    (pairs : List (List Char × List Char))
    (hkeys : ∀ p ∈ pairs, p.1 ≠ [] ∧ ∀ c ∈ p.1, isNameChar c = true)
    (hvalues : ∀ p ∈ pairs, ∀ c ∈ p.2, c ≠ '"')
    (honce : once = true → (pairs.map (·.1)).Nodup) :
    ∃ listed, listAttributes once (name ++ writePairs pairs) name.length = ⟨listed, none⟩ ∧
      listed.map (fun a => (a.key, a.value)) = pairs := by
  have hfuel : pairs.length ≤ (name ++ writePairs pairs).length := by
    have := length_le_writePairs pairs
    rw [List.length_append]
    omega
  rw [listAttributes, List.drop_left]
  exact listFrom_writePairs _ once pairs hkeys hvalues _ [] hfuel
    (fun h => ⟨honce h, fun _ _ => rfl⟩)

end SchemaRename.Markup
