import Mathlib.Data.List.Nodup
import SchemaRename.Markup.Document
import SchemaRename.Proofs.Markup.Scanning

/-!
# Documents Survive Writing

Writing a document and reading it back loses the blanks around texts, and
nothing else.

Blanks are lost because the reader cannot tell those of a text from those of
the layout, and a text of blanks alone is lost with them. So the reader does
not give back the document that was written but its trimmed form, and that is
the right notion of sameness here: a document is its own trimmed form as soon
as it has been read once.

The writer and the reader go in opposite directions. The writer puts each
part in front of what follows, so a statement about an element has to hold in
front of an arbitrary rest; the reader keeps what is open on a stack, so the
statement has to hold on top of an arbitrary stack. `Reads` has both: a text
takes the reader from one state of its tree to another. Reading an element is
then one step, whose effect on the tree is to attach the trimmed element, and
the elements of a list are steps one after the other.

## Main definitions

* `trimText`: A text without the blanks around it, if anything is left.
* `Element.trimTexts`: An element with every text in it trimmed.
* `Element.isWellNamed`: Names and keys that can be written as they are.
* `Document.isWritable`: Documents that can be read back.
* `Reads`: A text that takes the reader from one tree to another.

## Theorems

* `elementOfTag_written`: A written tag opens the element it was written for.
* `declarationOf_written`: A written declaration reads back.
* `reads_element`, `reads_elements`: A written element is attached, trimmed.
* `parse_render`: A document reads back trimmed.
-/

namespace SchemaRename.Markup

open SchemaRename.Text

/-- A text without the blanks around it, if anything is left. -/
def trimText (text : String) : Option String :=
  let trimmed := trimSpace text.toList
  if trimmed.isEmpty then none else some (String.ofList trimmed)

mutual

/-- An element with every text in it trimmed. -/
def Element.trimTexts : Element → Element
  | ⟨name, attributes, text, children⟩ =>
    ⟨name, attributes, text.bind trimText, Element.trimAll children⟩

def Element.trimAll : List Element → List Element
  | [] => []
  | e :: more => e.trimTexts :: Element.trimAll more

end

mutual

/-- Whether the names and keys of an element can be written as they are. Keys
    have to differ, because a tag with a repeated key is refused. -/
def Element.isWellNamed : Element → Bool
  | ⟨name, attributes, _, children⟩ =>
    isName name.toList && attributes.all (fun a => isName a.1.toList) &&
      decide (attributes.map (·.1)).Nodup && Element.allWellNamed children

def Element.allWellNamed : List Element → Bool
  | [] => true
  | e :: more => e.isWellNamed && Element.allWellNamed more

end

/-- Whether the strings of a declaration can be written as they are. -/
def Declaration.isPlain (d : Declaration) : Bool :=
  (d.version :: (d.encoding.toList ++ d.standalone.toList)).all fun s =>
    s.toList.all fun c => !(['"', '<', '>', '&'].contains c)

/-- Documents that can be read back: there is a root, and names and the
    declaration can be written as they are. Texts and values are free. -/
def Document.isWritable (d : Document) : Bool :=
  !d.roots.isEmpty && d.roots.all Element.isWellNamed && d.declaration.all Declaration.isPlain

theorem trimAll_eq_map (es : List Element) : Element.trimAll es = es.map Element.trimTexts := by
  induction es with
  | nil => rfl
  | cons e es ih => rw [Element.trimAll, ih, List.map_cons]

theorem allWellNamed_eq_all (es : List Element) :
    Element.allWellNamed es = es.all Element.isWellNamed := by
  induction es with
  | nil => rfl
  | cons e es ih => rw [Element.allWellNamed, ih, List.all_cons]

theorem trimSpace_eq_nil_iff (s : List Char) : trimSpace s = [] ↔ s.all isSpace = true := by
  rw [trimSpace, trimSpaceEnd, List.reverse_eq_nil_iff, List.dropWhile_eq_nil_iff,
    List.all_eq_true]
  constructor
  · intro h
    have hblank : ∀ c ∈ s.dropWhile isSpace, isSpace c = true :=
      fun c hc => h c (List.mem_reverse.mpr hc)
    cases hs : s.dropWhile isSpace with
    | nil => exact List.dropWhile_eq_nil_iff.mp hs
    | cons c t =>
        -- What is left would start with a blank.
        have hc := hblank c (by rw [hs]; exact List.mem_cons_self)
        have hno := List.head?_dropWhile_not isSpace s
        rw [hs] at hno
        simp only [List.head?_cons] at hno
        rw [hc] at hno
        exact absurd hno (by decide)
  · intro h c hc
    exact h c ((List.dropWhile_sublist isSpace).subset (List.mem_reverse.mp hc))

theorem attributePairs_keys (attributes : List (String × String))
    (h : ∀ a ∈ attributes, isName a.1.toList = true) :
    ∀ p ∈ attributePairs attributes, p.1 ≠ [] ∧ ∀ c ∈ p.1, isNameChar c = true := by
  intro p hp
  rcases List.mem_map.mp hp with ⟨a, ha, rfl⟩
  refine ⟨?_, isNameChar_of_isName _ (h a ha)⟩
  rcases isName_cases _ (h a ha) with ⟨c, more, hcons, _⟩
  rw [hcons]
  exact List.cons_ne_nil c more

theorem attributePairs_values (attributes : List (String × String)) :
    ∀ p ∈ attributePairs attributes, ∀ c ∈ p.2, c ≠ '"' := by
  intro p hp
  rcases List.mem_map.mp hp with ⟨a, _, rfl⟩
  exact ne_of_mem_escape '"' (by decide) (by decide) a.2.toList

theorem attributePairs_nodup (attributes : List (String × String))
    (h : (attributes.map (·.1)).Nodup) : ((attributePairs attributes).map (·.1)).Nodup := by
  -- Keys are written as they are, so they differ as texts if they differ.
  have hmap : (attributePairs attributes).map (·.1) = (attributes.map (·.1)).map String.toList := by
    simp only [attributePairs, List.map_map, Function.comp_def]
  rw [hmap]
  exact List.Nodup.map (fun a b hab => String.toList_inj.mp hab) h

theorem mapM_resolve (attributes : List (String × String)) : ∀ (listed : List RawAttribute),
    listed.map (fun a => (a.key, a.value)) = attributePairs attributes →
      listed.mapM RawAttribute.resolve = .ok attributes := by
  induction attributes with
  | nil =>
      intro listed h
      rw [attributePairs, List.map_nil, List.map_eq_nil_iff] at h
      rw [h]
      rfl
  | cons a attributes ih =>
      intro listed h
      cases listed with
      | nil => exact absurd h (by simp only [attributePairs, List.map_nil, List.map_cons,
          reduceCtorEq, not_false_eq_true])
      | cons raw listed =>
          rw [attributePairs, List.map_cons, List.map_cons, List.cons.injEq, Prod.mk.injEq] at h
          rcases h with ⟨⟨hkey, hvalue⟩, hrest⟩
          -- The value was escaped when it was written, and unescapes to itself.
          have hraw : raw.resolve = .ok a := by
            rw [RawAttribute.resolve, hvalue, unescape_escape, hkey]
            simp only [String.ofList_toList]
          rw [List.mapM_cons, hraw, ih listed hrest]
          rfl

/-- A written tag opens the element it was written for. -/
theorem elementOfTag_written (name : String) (attributes : List (String × String))
    (hname : isName name.toList = true) (hkeys : ∀ a ∈ attributes, isName a.1.toList = true)
    (hnodup : (attributes.map (·.1)).Nodup) :
    elementOfTag (name.toList ++ writePairs (attributePairs attributes)) =
      .ok ⟨name, attributes, none, []⟩ := by
  rcases listAttributes_writePairs true name.toList (attributePairs attributes)
    (attributePairs_keys attributes hkeys) (attributePairs_values attributes)
    (fun _ => attributePairs_nodup attributes hnodup) with ⟨listed, hlist, hmap⟩
  have hresolve := mapM_resolve attributes listed hmap
  rw [elementOfTag, tagName_append_writePairs _ _ (isNameChar_of_isName _ hname)]
  simp only [hlist, hresolve, String.ofList_toList]
  rfl

/-- The pairs of a declaration; a string that is absent makes none. -/
def declarationPairs (d : Declaration) : List (List Char × List Char) :=
  ("version".toList, d.version.toList) ::
    (d.encoding.toList.map fun s => ("encoding".toList, s.toList)) ++
    d.standalone.toList.map fun s => ("standalone".toList, s.toList)

theorem declaration_write_eq (d : Declaration) :
    d.write = "<?xml".toList ++ writePairs (declarationPairs d) ++ ['?', '>'] := by
  unfold Declaration.write declarationPairs
  rcases d with ⟨version, encoding, standalone⟩
  cases encoding <;> cases standalone <;>
    simp only [writePairs, String.toList_append, String.reduceToList, Option.toList_some,
      Option.toList_none, List.flatMap_cons, List.flatMap_nil, List.map_cons, List.map_nil,
      List.append_nil, List.append_assoc, List.cons_append, List.nil_append]

theorem find_written (listed : List RawAttribute) (key : String) (context : Context) :
    Listing.find ⟨listed, none⟩ key context =
      .ok (((listed.map fun a => (a.key, a.value)).lookup key.toList).map String.ofList) := by
  unfold Listing.find
  induction listed with
  | nil => rfl
  | cons a listed ih =>
      cases hkey : a.key == key.toList with
      | true =>
          have hkey' : (key.toList == a.key) = true := by
            rw [beq_iff_eq] at hkey ⊢
            exact hkey.symm
          simp only [List.find?_cons, hkey, List.map_cons, List.lookup_cons, hkey',
            Option.map_some]
      | false =>
          have hkey' : (key.toList == a.key) = false := by
            rw [beq_eq_false_iff_ne] at hkey ⊢
            exact fun h => hkey h.symm
          simpa only [List.find?_cons, hkey, List.map_cons, List.lookup_cons, hkey'] using ih

theorem lookup_encoding (d : Declaration) :
    (declarationPairs d).lookup "encoding".toList = d.encoding.map String.toList := by
  rcases d with ⟨version, encoding, standalone⟩
  unfold declarationPairs
  cases encoding <;> cases standalone <;> rfl

theorem lookup_standalone (d : Declaration) :
    (declarationPairs d).lookup "standalone".toList = d.standalone.map String.toList := by
  rcases d with ⟨version, encoding, standalone⟩
  unfold declarationPairs
  cases encoding <;> cases standalone <;> rfl

theorem mem_declarationPairs (d : Declaration) (p : List Char × List Char)
    (h : p ∈ declarationPairs d) : isName p.1 = true ∧
      ∃ s ∈ d.version :: (d.encoding.toList ++ d.standalone.toList), p.2 = s.toList := by
  have hversion : isName "version".toList = true := by decide
  have hencoding : isName "encoding".toList = true := by decide
  have hstandalone : isName "standalone".toList = true := by decide
  unfold declarationPairs at h
  rcases List.mem_append.mp h with h | h
  · rcases List.mem_cons.mp h with rfl | h
    · exact ⟨hversion, d.version, List.mem_cons_self, rfl⟩
    · rcases List.mem_map.mp h with ⟨s, hs, rfl⟩
      exact ⟨hencoding, s, List.mem_cons_of_mem _ (List.mem_append_left _ hs), rfl⟩
  · rcases List.mem_map.mp h with ⟨s, hs, rfl⟩
    exact ⟨hstandalone, s, List.mem_cons_of_mem _ (List.mem_append_right _ hs), rfl⟩

theorem declarationPairs_values (d : Declaration) (hd : d.isPlain = true)
    (p : List Char × List Char) (h : p ∈ declarationPairs d) :
    ∀ c ∈ p.2, c ∉ ['"', '<', '>', '&'] := by
  rcases mem_declarationPairs d p h with ⟨_, s, hs, hp⟩
  intro c hc hmem
  rw [Declaration.isPlain, List.all_eq_true] at hd
  have hs' := List.all_eq_true.mp (hd s hs) c (by rw [← hp]; exact hc)
  rw [List.contains_iff_mem.mpr hmem] at hs'
  exact absurd hs' (by decide)

/-- A written declaration reads back. -/
theorem declarationOf_written (d : Declaration) (hd : d.isPlain = true) :
    declarationOf ("xml".toList ++ writePairs (declarationPairs d)) = .ok d := by
  have hkeys : ∀ p ∈ declarationPairs d, p.1 ≠ [] ∧ ∀ c ∈ p.1, isNameChar c = true := by
    intro p hp
    have hname := (mem_declarationPairs d p hp).1
    rcases isName_cases p.1 hname with ⟨c, more, hcons, _⟩
    exact ⟨by rw [hcons]; exact List.cons_ne_nil c more, isNameChar_of_isName p.1 hname⟩
  have hvalues : ∀ p ∈ declarationPairs d, ∀ c ∈ p.2, c ≠ '"' := by
    intro p hp c hc heq
    exact declarationPairs_values d hd p hp c hc (by rw [heq]; exact List.mem_cons_self)
  rcases listAttributes_writePairs false "xml".toList (declarationPairs d) hkeys hvalues
    (fun h => absurd h (by decide)) with ⟨listed, hlist, hmap⟩
  have hlength : "xml".toList.length = 3 := by decide
  rw [hlength] at hlist
  -- Encoding and standalone are looked up; the version has to come first.
  have hencoding := find_written listed "encoding" .encoding
  have hstandalone := find_written listed "standalone" .standalone
  rw [hmap, lookup_encoding] at hencoding
  rw [hmap, lookup_standalone] at hstandalone
  cases listed with
  | nil => exact absurd hmap (by
      simp only [declarationPairs, List.map_nil, List.cons_append, reduceCtorEq,
        not_false_eq_true])
  | cons a listed =>
      unfold declarationPairs at hmap
      rw [List.map_cons, List.cons_append, List.cons.injEq, Prod.mk.injEq] at hmap
      rw [declarationOf, hlist]
      simp only [hmap.1.1, hmap.1.2, beq_self_eq_true, if_true, hencoding, hstandalone,
        Option.map_map, Function.comp_def, String.ofList_toList, Option.map_id']
      rfl

theorem ne_bracket_of_mem_declaration (d : Declaration) (hd : d.isPlain = true) :
    ∀ c ∈ "xml".toList ++ writePairs (declarationPairs d), c ≠ '>' := by
  intro c hc
  rcases List.mem_append.mp hc with hc | hc
  · intro heq
    subst heq
    exact absurd hc (by decide)
  · rcases List.mem_flatMap.mp hc with ⟨p, hp, hc⟩
    -- A pair is made of name characters, of its value and of punctuation.
    have hkey := isNameChar_of_isName p.1 (mem_declarationPairs d p hp).1
    simp only [List.cons_append, List.mem_cons, List.mem_append, List.not_mem_nil,
      or_false] at hc
    rcases hc with rfl | (hc | rfl | rfl | hc) | rfl
    · decide
    · exact ne_of_isNameChar c '>' (hkey c hc) (by decide)
    · decide
    · decide
    · intro heq
      exact declarationPairs_values d hd p hp c hc (by rw [heq]; decide)
    · decide

/-- A text that takes the reader from one tree to another when the given tags
    are open. -/
def Reads (opened : List (List Char)) (text : List Char) (before after : Builder) : Prop :=
  ∃ events, Scans opened text events ∧ events.foldlM Builder.add before = .ok after

theorem reads_of_add (opened opened' : List (List Char)) (text rest : List Char) (event : Event)
    (b b' r : Builder) (hscan : ∀ events, Scans opened' rest events →
      Scans opened text (event :: events))
    (hadd : b.add event = .ok b') (h : Reads opened' rest b' r) : Reads opened text b r := by
  rcases h with ⟨events, hs, hfold⟩
  refine ⟨event :: events, hscan events hs, ?_⟩
  rw [List.foldlM_cons, hadd]
  exact hfold

theorem reads_blanks (opened : List (List Char)) (blanks text : List Char) (b r : Builder)
    (hb : ∀ c ∈ blanks, isSpace c = true) (h : Reads opened text b r) :
    Reads opened (blanks ++ text) b r := by
  rcases h with ⟨events, hs, hfold⟩
  exact ⟨events, scans_blanks_append opened blanks text events hb hs, hfold⟩

theorem isSpace_of_mem_lineBreak (depth : Nat) : ∀ c ∈ lineBreak depth, isSpace c = true := by
  intro c hc
  rcases List.mem_cons.mp hc with rfl | hc
  · decide
  · rw [List.eq_of_mem_replicate hc]
    decide

theorem reads_text (opened : List (List Char)) (text name : String)
    (attributes : List (String × String)) (rest : List Char) (declaration : Option Declaration)
    (outer roots : List Element) (r : Builder)
    (h : Reads opened ('<' :: rest)
      ⟨declaration, ⟨name, attributes, trimText text, []⟩ :: outer, roots⟩ r) :
    Reads opened (escape text.toList ++ '<' :: rest)
      ⟨declaration, ⟨name, attributes, none, []⟩ :: outer, roots⟩ r := by
  rcases h with ⟨events, hs, hfold⟩
  have hno := ne_of_mem_escape '<' (by decide) (by decide) text.toList
  refine ⟨_, scans_text opened _ rest events hno hs, ?_⟩
  -- The escaped text is blank exactly if the text is, and then nothing is added.
  have hiff := trimSpace_eq_nil_iff (escape text.toList)
  rw [trimSpace_escape, escape_eq_nil_iff] at hiff
  rw [textEvents]
  cases htrim : trimSpace text.toList with
  | nil =>
      rw [if_pos (hiff.mp htrim), List.nil_append]
      rw [trimText, htrim] at hfold
      exact hfold
  | cons c t =>
      have hsome : ¬ (escape text.toList).all isSpace = true := by
        rw [← hiff, htrim]
        exact List.cons_ne_nil c t
      rw [if_neg hsome, trimSpace_escape, htrim, List.cons_append, List.nil_append,
        List.foldlM_cons]
      rw [trimText, htrim] at hfold
      -- What was trimmed in its escaped form unescapes to the trimmed text.
      have hadd : Builder.add ⟨declaration, ⟨name, attributes, none, []⟩ :: outer, roots⟩
          (.text (escape (c :: t))) =
          .ok ⟨declaration, ⟨name, attributes, some (String.ofList (c :: t)), []⟩ :: outer,
            roots⟩ := by
        simp only [Builder.add, unescape_escape, Builder.appendText, Option.getD_none,
          String.empty_append]
      rw [hadd]
      exact hfold

/-- An opening tag puts its element on the stack. -/
theorem reads_opening (opened : List (List Char)) (name : String)
    (attributes : List (String × String)) (rest : List Char) (b r : Builder)
    (hname : isName name.toList = true) (hkeys : ∀ a ∈ attributes, isName a.1.toList = true)
    (hnodup : (attributes.map (·.1)).Nodup)
    (h : Reads (name.toList :: opened) rest
      { b with opened := ⟨name, attributes, none, []⟩ :: b.opened } r) :
    Reads opened ('<' :: (name.toList ++ writeAttributes attributes ++ '>' :: rest)) b r := by
  rw [writeAttributes_eq]
  refine reads_of_add opened _ _ rest
    (.opening (name.toList ++ writePairs (attributePairs attributes))) b _ r
    (fun events hs => ?_) ?_ h
  · exact scans_opening opened name.toList _ rest events hname
      (fun p hp => (attributePairs_keys attributes hkeys p hp).2)
      (attributePairs_values attributes) hs
  · rw [Builder.add, elementOfTag_written name attributes hname hkeys hnodup]
    rfl

theorem reads_empty (opened : List (List Char)) (name : String)
    (attributes : List (String × String)) (rest : List Char) (b r : Builder)
    (hname : isName name.toList = true) (hkeys : ∀ a ∈ attributes, isName a.1.toList = true)
    (hnodup : (attributes.map (·.1)).Nodup)
    (h : Reads opened rest (b.attach ⟨name, attributes, none, []⟩) r) :
    Reads opened ('<' :: (name.toList ++ (writeAttributes attributes ++ ['/']) ++ '>' :: rest))
      b r := by
  rw [writeAttributes_eq]
  refine reads_of_add opened _ _ rest
    (.empty (name.toList ++ writePairs (attributePairs attributes))) b _ r
    (fun events hs => ?_) ?_ h
  · exact scans_empty opened name.toList _ rest events hname
      (fun p hp => (attributePairs_keys attributes hkeys p hp).2)
      (attributePairs_values attributes) hs
  · rw [Builder.add, elementOfTag_written name attributes hname hkeys hnodup]
    rfl

theorem reads_closing (opened : List (List Char)) (name : List Char) (rest : List Char)
    (e : Element) (b r : Builder) (hname : isName name = true)
    (h : Reads opened rest (b.attach e) r) :
    Reads (name :: opened) ('<' :: '/' :: (name ++ '>' :: rest))
      { b with opened := e :: b.opened } r :=
  reads_of_add _ opened _ rest .closing _ _ r
    (fun events hs => scans_closing opened name rest events hname hs) rfl h

/-- Elements attached one after the other become children of the innermost
    element. -/
theorem foldl_attach_opened (parent : Element) (es : List Element) : ∀ (b : Builder),
    es.foldl Builder.attach { b with opened := parent :: b.opened } =
      { b with opened := { parent with children := parent.children ++ es } :: b.opened } := by
  induction es generalizing parent with
  | nil =>
      intro b
      rcases parent with ⟨name, attributes, text, children⟩
      rw [List.foldl_nil, List.append_nil]
  | cons e es ih =>
      intro b
      rw [List.foldl_cons]
      -- The parent grows by one child, and the others follow it.
      have hstep := ih { parent with children := parent.children ++ [e] } b
      simp only [List.append_assoc, List.singleton_append] at hstep
      exact hstep

theorem foldl_attach_roots (es : List Element) : ∀ (declaration : Option Declaration)
    (roots : List Element), es.foldl Builder.attach ⟨declaration, [], roots⟩ =
      ⟨declaration, [], roots ++ es⟩ := by
  induction es with
  | nil => intro declaration roots; rw [List.foldl_nil, List.append_nil]
  | cons e es ih =>
      intro declaration roots
      rw [List.foldl_cons]
      have hstep := ih declaration (roots ++ [e])
      rw [List.append_assoc, List.singleton_append] at hstep
      exact hstep

/-- What stands in front of a tag: a new line, unless there is a text. -/
def leadOf (depth : Nat) (afterText : Bool) : List Char :=
  if afterText then [] else lineBreak depth

theorem isSpace_of_mem_leadOf (depth : Nat) (afterText : Bool) :
    ∀ c ∈ leadOf depth afterText, isSpace c = true := by
  intro c hc
  cases afterText with
  | true => exact absurd hc List.not_mem_nil
  | false => exact isSpace_of_mem_lineBreak depth c hc

theorem write_empty (depth : Nat) (afterText : Bool) (name : String)
    (attributes : List (String × String)) (rest : List Char) :
    Element.write depth afterText ⟨name, attributes, none, []⟩ rest = leadOf depth afterText ++
      '<' :: (name.toList ++ (writeAttributes attributes ++ ['/']) ++ '>' :: rest) := by
  simp only [Element.write, leadOf, List.cons_append, List.append_assoc, List.nil_append]

/-- An element with a text or children is a pair of tags around them. -/
theorem write_pair (depth : Nat) (afterText : Bool) (name : String)
    (attributes : List (String × String)) (text : Option String) (children : List Element)
    (rest : List Char) (h : text = none → children = [] → False) :
    Element.write depth afterText ⟨name, attributes, text, children⟩ rest =
      leadOf depth afterText ++ '<' :: (name.toList ++ writeAttributes attributes ++ '>' ::
        (escape (text.getD "").toList ++ Element.writeAll (depth + 1) text.isSome children
          ((if children.isEmpty then [] else lineBreak depth) ++
            ('<' :: '/' :: (name.toList ++ ('>' :: rest)))))) := by
  rw [Element.write]
  · simp only [leadOf, List.cons_append]
  · exact h

/-- Directly behind a text an element starts with its bracket, so that no
    blank is added to the text. -/
theorem write_afterText (e : Element) (depth : Nat) (rest : List Char) :
    ∃ tail, e.write depth true rest = '<' :: tail := by
  rcases e with ⟨name, attributes, text, children⟩
  by_cases h : text = none ∧ children = []
  · rw [h.1, h.2, write_empty]
    exact ⟨_, rfl⟩
  · rw [write_pair depth true name attributes text children rest (fun ht hc => h ⟨ht, hc⟩)]
    exact ⟨_, rfl⟩

/-- The text and the children of an element, up to its closing tag: the
    children are attached below it and its text is trimmed. `hchildren` is
    the induction hypothesis, for the children as a list. -/
theorem reads_content (opened : List (List Char)) (depth : Nat) (name : String)
    (attributes : List (String × String)) (text : Option String) (children : List Element)
    (rest : List Char) (b r : Builder) (hname : isName name.toList = true)
    (hchildren : ∀ (afterText : Bool) (rest : List Char) (b' r' : Builder),
      Reads (name.toList :: opened) rest ((Element.trimAll children).foldl Builder.attach b') r' →
      Reads (name.toList :: opened) (Element.writeAll (depth + 1) afterText children rest) b' r')
    (h : Reads opened rest
      (b.attach ⟨name, attributes, text.bind trimText, Element.trimAll children⟩) r) :
    Reads (name.toList :: opened)
      (escape (text.getD "").toList ++ Element.writeAll (depth + 1) text.isSome children
        ((if children.isEmpty then [] else lineBreak depth) ++
          ('<' :: '/' :: (name.toList ++ ('>' :: rest)))))
      { b with opened := ⟨name, attributes, none, []⟩ :: b.opened } r := by
  have hclosing := reads_closing opened name.toList rest _ b r hname h
  -- From the children on, for whatever text the element has by then.
  have hrest : Reads (name.toList :: opened)
      (Element.writeAll (depth + 1) text.isSome children
        ((if children.isEmpty then [] else lineBreak depth) ++
          ('<' :: '/' :: (name.toList ++ ('>' :: rest)))))
      { b with opened := ⟨name, attributes, text.bind trimText, []⟩ :: b.opened } r := by
    refine hchildren _ _ _ r ?_
    rw [foldl_attach_opened]
    simp only [List.nil_append]
    split
    · exact hclosing
    · exact reads_blanks _ _ _ _ r (isSpace_of_mem_lineBreak depth) hclosing
  cases text with
  | none => exact hrest
  | some t =>
      simp only [Option.getD_some, Option.isSome_some] at hrest ⊢
      -- What follows the text starts with a bracket, be it a child's or the closing tag's.
      cases children with
      | nil =>
          rw [Element.writeAll, List.isEmpty_nil, if_pos rfl, List.nil_append] at hrest ⊢
          exact reads_text _ t name attributes _ b.declaration b.opened b.roots r hrest
      | cons c children =>
          rw [Element.writeAll] at hrest ⊢
          rcases write_afterText c (depth + 1) (Element.writeAll (depth + 1) false children
            ((if (c :: children).isEmpty then [] else lineBreak depth) ++
              ('<' :: '/' :: (name.toList ++ ('>' :: rest))))) with ⟨tail, htail⟩
          rw [htail] at hrest ⊢
          exact reads_text _ t name attributes _ b.declaration b.opened b.roots r hrest

mutual

/-- A written element is attached, trimmed. -/
theorem reads_element (e : Element) (opened : List (List Char)) (depth : Nat) (afterText : Bool)
    (rest : List Char) (b r : Builder) (he : e.isWellNamed = true)
    (h : Reads opened rest (b.attach e.trimTexts) r) :
    Reads opened (e.write depth afterText rest) b r :=
  match e with
  | ⟨name, attributes, text, children⟩ => by
    simp only [Element.isWellNamed, Bool.and_eq_true, List.all_eq_true, decide_eq_true_eq] at he
    rcases he with ⟨⟨⟨hname, hkeys⟩, hnodup⟩, hchildren⟩
    rw [Element.trimTexts] at h
    -- An element with nothing in it is one tag; all others are pairs of tags.
    by_cases hbare : text = none ∧ children = []
    · rcases hbare with ⟨rfl, rfl⟩
      rw [write_empty]
      refine reads_blanks opened _ _ b r (isSpace_of_mem_leadOf depth afterText) ?_
      exact reads_empty opened name attributes rest b r hname hkeys hnodup h
    · rw [write_pair depth afterText name attributes text children rest
        (fun ht hc => hbare ⟨ht, hc⟩)]
      refine reads_blanks opened _ _ b r (isSpace_of_mem_leadOf depth afterText) ?_
      refine reads_opening opened name attributes _ b r hname hkeys hnodup ?_
      refine reads_content opened depth name attributes text children rest b r hname ?_ h
      exact fun afterText rest b' r' hrest =>
        reads_elements children _ _ afterText rest b' r' hchildren hrest

/-- Written elements are attached in order, trimmed. -/
theorem reads_elements (es : List Element) (opened : List (List Char)) (depth : Nat)
    (afterText : Bool) (rest : List Char) (b r : Builder) (hes : Element.allWellNamed es = true)
    (h : Reads opened rest ((Element.trimAll es).foldl Builder.attach b) r) :
    Reads opened (Element.writeAll depth afterText es rest) b r :=
  match es with
  | [] => h
  | e :: more => by
    rw [Element.allWellNamed, Bool.and_eq_true] at hes
    rw [Element.writeAll]
    refine reads_element e opened depth afterText _ b r hes.1 ?_
    exact reads_elements more opened depth false rest _ r hes.2 h

end

/-- A text that is read to the end from an empty tree, with nothing left open
    and some root, is a document. -/
theorem parse_of_reads (text : List Char) (declaration : Option Declaration) (roots : List Element)
    (hmark : dropByteOrderMark text = text) (hroots : roots ≠ [])
    (h : Reads [] text {} ⟨declaration, [], roots⟩) :
    Document.parse (String.ofList text) = .ok ⟨declaration, roots⟩ := by
  rcases h with ⟨events, hscan, hfold⟩
  have hs : scan text = ⟨events, none⟩ := by
    rw [scan, hmark]
    exact hscan 0
  rcases List.exists_cons_of_ne_nil hroots with ⟨root, more, rfl⟩
  rw [Document.parse, String.toList_ofList, hs, Scan.document, hfold]
  rfl

theorem reads_declaration (d : Declaration) (rest : List Char) (b r : Builder)
    (hd : d.isPlain = true) (h : Reads [] rest { b with declaration := some d } r) :
    Reads [] (d.write ++ rest) b r := by
  have hwrite : d.write ++ rest =
      '<' :: '?' :: ("xml".toList ++ writePairs (declarationPairs d) ++ '?' :: '>' :: rest) := by
    rw [declaration_write_eq]
    simp only [String.reduceToList, List.cons_append, List.nil_append, List.append_assoc]
  -- The version is always written, so a blank follows the name.
  have hblank : ("xml".toList ++ writePairs (declarationPairs d))[3]?.any isSpace = true := by
    unfold declarationPairs
    simp only [String.reduceToList, List.cons_append, writePairs_cons]
    rfl
  have hxml : "xml".toList.isPrefixOf ("xml".toList ++ writePairs (declarationPairs d)) = true := by
    rw [List.isPrefixOf_iff_prefix]
    exact List.prefix_append _ _
  rw [hwrite]
  refine reads_of_add [] [] _ rest
    (.declaration ("xml".toList ++ writePairs (declarationPairs d))) b _ r
    (fun events hs => ?_) ?_ h
  · exact scans_declaration [] _ rest events hxml hblank
      (ne_bracket_of_mem_declaration d hd) hs
  · rw [Builder.add, declarationOf_written d hd]
    rfl

/-- Writing a document and reading it back gives its declaration, or the
    standard one, and its roots with all texts trimmed. -/
theorem parse_render (d : Document) (h : d.isWritable = true) :
    Document.parse d.render =
      .ok ⟨some (d.declaration.getD .standard), d.roots.map Element.trimTexts⟩ := by
  simp only [Document.isWritable, Bool.and_eq_true, Bool.not_eq_true', List.isEmpty_eq_false_iff]
    at h
  rcases h with ⟨⟨hroots, hnames⟩, hdecl⟩
  have hplain : (d.declaration.getD .standard).isPlain = true := by
    cases hd : d.declaration with
    | none => decide
    | some declaration =>
        rw [hd] at hdecl
        exact hdecl
  -- The layout ends with a line feed, which yields nothing.
  have hend : Reads [] ['\n'] ⟨some (d.declaration.getD .standard), [], d.roots.map
      Element.trimTexts⟩ ⟨some (d.declaration.getD .standard), [], d.roots.map
      Element.trimTexts⟩ :=
    ⟨[], scans_blank [] ['\n'] (List.forall_mem_singleton.mpr (by decide)), rfl⟩
  have hbody : Reads [] (Element.writeAll 0 false d.roots ['\n'])
      ⟨some (d.declaration.getD .standard), [], []⟩
      ⟨some (d.declaration.getD .standard), [], d.roots.map Element.trimTexts⟩ := by
    refine reads_elements d.roots [] 0 false ['\n'] _ _ (allWellNamed_eq_all d.roots ▸ hnames) ?_
    rw [trimAll_eq_map, foldl_attach_roots, List.nil_append]
    exact hend
  have hall := reads_declaration (d.declaration.getD .standard) _ {} _ hplain hbody
  refine parse_of_reads _ _ _ ?_ ?_ hall
  · rw [declaration_write_eq]
    rfl
  · rw [ne_eq, List.map_eq_nil_iff]
    exact hroots

/-- A document with blanks around a text in front of a child, a text of
    blanks, an empty text, a value of special characters and blanks, and no
    declaration. -/
theorem parse_render_mixed :
    Document.isWritable ⟨none, [⟨"a", [("k", " <\"&>'\n")], some "\t& x \n",
      [⟨"b", [], some "", []⟩, ⟨"c", [], some " \r", [⟨"d?", [], none, []⟩]⟩]⟩]⟩ = true ∧
    Document.parse (Document.render ⟨none, [⟨"a", [("k", " <\"&>'\n")], some "\t& x \n",
      [⟨"b", [], some "", []⟩, ⟨"c", [], some " \r", [⟨"d?", [], none, []⟩]⟩]⟩]⟩) =
      .ok ⟨some .standard, [⟨"a", [("k", " <\"&>'\n")], some "& x",
        [⟨"b", [], none, []⟩, ⟨"c", [], none, [⟨"d?", [], none, []⟩]⟩]⟩]⟩ := by
  have hwritable : Document.isWritable ⟨none, [⟨"a", [("k", " <\"&>'\n")], some "\t& x \n",
      [⟨"b", [], some "", []⟩, ⟨"c", [], some " \r", [⟨"d?", [], none, []⟩]⟩]⟩]⟩ = true := by
    decide +kernel
  refine ⟨hwritable, (parse_render _ hwritable).trans ?_⟩
  rfl

end SchemaRename.Markup
