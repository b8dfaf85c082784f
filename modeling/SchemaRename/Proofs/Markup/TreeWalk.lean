import SchemaRename.Markup.Document
import SchemaRename.Proofs.Markup.Scanning

/-!
# The Tree and Its Tags

The reader neither loses nor misplaces a part of a document.

A tree is compared with the parts it was built from by going through it: from
the opening tag of an element through its children to its closing tag. That
gives the tags of the document again, in their order. The text of an element
goes with its opening tag. In the document it stands further on, in pieces
between the children, so what an opening tag should come with is found by
looking ahead, past whatever is opened and closed on the way.

While the tree is built, some elements are open, and their texts are not
complete. `Builder.foretold` says which tags the tree will have when the parts
to come have been added. It is the same before a part is added and after, so it
is the same at the end, when there is nothing to come, and at the start, when
everything is.

The scanner keeps the open tags on a stack of its own. Every part does the same
to both stacks, so they are equal at any time. A closing tag that the scanner
lets pass therefore always finds an open element.

## Main definitions

* `Element.marks`: The tags of an element.
* `marks`, `pieces`, `textInside`: The tags that some parts stand for, and the
  text that stands directly in an element.
* `Builder.foretold`: The tags that the tree will have.
* `Builder.Takes`, `Scanner.Delivers`: What a part does to the tree, and what a
  step of the scanner comes to.
* `Event.shift`: What a part does to the names of the open tags.
* `Lockstep`: The scanner and the tree after some steps.

## Theorems

* `foretold_of_takes`, `foretold_foldlM`: Adding parts changes nothing that was
  foretold.
* `delivers_of_step`, `step_of_run`: The steps of the scanner.
* `Lockstep.names`: The scanner and the tree agree on what is open.
* `parse_ne_unexpectedClosing`: No closing tag is unexpected.
* `parse_tree_exact`: The tree of a text.
-/

namespace SchemaRename.Markup

open SchemaRename.Text

/-- A tag of a tree. The text of an element goes with its opening tag. -/
inductive Mark where
  | opening (name : String) (attributes : List (String × String)) (text : Option String)
  | closing
deriving Repr, DecidableEq

mutual

/-- The tags of an element, from its opening tag to its closing one. -/
def Element.marks : Element → List Mark
  | ⟨name, attributes, text, children⟩ =>
    .opening name attributes text :: (Element.marksAll children ++ [.closing])

/-- The tags of some elements, one element after the other. -/
def Element.marksAll : List Element → List Mark
  | [] => []
  | e :: more => e.marks ++ Element.marksAll more

end

theorem Element.marks_eq (e : Element) : e.marks =
    .opening e.name e.attributes e.text :: (Element.marksAll e.children ++ [.closing]) := by
  cases e
  rw [Element.marks]

theorem marksAll_append (es es' : List Element) :
    Element.marksAll (es ++ es') = Element.marksAll es ++ Element.marksAll es' := by
  induction es with
  | nil => rfl
  | cons e es ih => rw [List.cons_append, Element.marksAll, Element.marksAll, ih, List.append_assoc]

theorem marksAll_concat (es : List Element) (e : Element) :
    Element.marksAll (es ++ [e]) = Element.marksAll es ++ e.marks := by
  rw [marksAll_append, Element.marksAll, Element.marksAll, List.append_nil]

/-- The attributes of a tag, with their references resolved. -/
def tagAttributes (tag : List Char) : List (String × String) :=
  (listAttributes true tag (tagName tag).length).attributes.map fun a =>
    (String.ofList a.key, String.ofList ((unescape a.value).toOption.getD []))

/-- What some parts add to the text of an element that is open, if `depth` of
    the elements in it are open too: texts with their references resolved, and
    character data as it is, up to the closing tag of the element. -/
def pieces : Nat → List Event → List (List Char)
  | _, [] => []
  | depth, .opening _ :: events => pieces (depth + 1) events
  | 0, .closing :: _ => []
  | depth + 1, .closing :: events => pieces depth events
  | 0, .text raw :: events => (unescape raw).toOption.getD [] :: pieces 0 events
  | 0, .data raw :: events => raw :: pieces 0 events
  | depth, _ :: events => pieces depth events

/-- The text that stands directly in an element, given the parts behind its
    opening tag. It is no text if there is nothing to put together. -/
def textInside (events : List Event) : Option String :=
  match pieces 0 events with
  | [] => none
  | found => some (String.ofList found.flatten)

/-- The tags that some parts stand for. A tag that closes itself is an opening
    tag and a closing one. -/
def marks : List Event → List Mark
  | [] => []
  | .opening tag :: events =>
    .opening (String.ofList (tagName tag)) (tagAttributes tag) (textInside events) :: marks events
  | .empty tag :: events =>
    .opening (String.ofList (tagName tag)) (tagAttributes tag) none :: .closing :: marks events
  | .closing :: events => .closing :: marks events
  | _ :: events => marks events

/-- A text with pieces behind it. -/
def withPieces (text : Option String) (found : List (List Char)) : Option String :=
  found.foldl (fun text piece => some (text.getD "" ++ String.ofList piece)) text

theorem withPieces_some (text : String) (found : List (List Char)) :
    withPieces (some text) found = some (text ++ String.ofList found.flatten) := by
  induction found generalizing text with
  | nil => simp [withPieces]
  | cons piece found ih =>
      rw [withPieces, List.foldl_cons]
      exact (ih _).trans (by simp [String.append_assoc, String.ofList_append])

theorem withPieces_none (events : List Event) :
    withPieces none (pieces 0 events) = textInside events := by
  rw [textInside]
  cases pieces 0 events with
  | nil => rfl
  | cons piece found =>
      rw [withPieces, List.foldl_cons]
      exact (withPieces_some _ found).trans (by simp [String.ofList_append])

/-- The tags of the open elements, innermost first, as far as they have come,
    with the texts that the parts to come will give them. -/
def pending : Nat → List Element → List Event → List Mark
  | _, [], _ => []
  | depth, e :: outer, events =>
    pending (depth + 1) outer events ++
      .opening e.name e.attributes (withPieces e.text (pieces depth events)) ::
        Element.marksAll e.children

/-- What is pending depends on the pieces to come only. -/
theorem pending_congr (opened : List Element) (depth depth' : Nat) (events events' : List Event)
    (h : ∀ n, pieces (depth + n) events = pieces (depth' + n) events') :
    pending depth opened events = pending depth' opened events' := by
  induction opened generalizing depth depth' with
  | nil => rfl
  | cons e outer ih =>
      have houter := ih (depth + 1) (depth' + 1) fun n => by
        rw [Nat.add_assoc, Nat.add_assoc]
        exact h (1 + n)
      rw [pending, pending, houter, show pieces depth events = pieces depth' events' from h 0]

/-- The tags that the tree will have, given the parts to come. -/
def Builder.foretold (b : Builder) (events : List Event) : List Mark :=
  Element.marksAll b.roots ++ pending 0 b.opened events ++ marks events

/-- A finished element comes behind everything that is there. -/
theorem foretold_attach (b : Builder) (e : Element) (events : List Event) :
    (b.attach e).foretold events =
      Element.marksAll b.roots ++ pending 0 b.opened events ++ e.marks ++ marks events := by
  rw [Builder.attach]
  cases hopened : b.opened with
  | nil => simp [Builder.foretold, pending, marksAll_concat]
  | cons parent outer => simp [Builder.foretold, pending, marksAll_concat]

/-- A piece of text goes to the innermost open element. -/
theorem foretold_appendText (b : Builder) (piece : List Char) (event : Event)
    (events : List Event) (hmarks : marks (event :: events) = marks events)
    (hinner : pieces 0 (event :: events) = piece :: pieces 0 events)
    (houter : ∀ depth, pieces (depth + 1) (event :: events) = pieces (depth + 1) events) :
    (b.appendText piece).foretold events = b.foretold (event :: events) := by
  rw [Builder.foretold, Builder.foretold, hmarks, Builder.appendText]
  cases hopened : b.opened with
  | nil => rw [hopened]; rfl
  | cons parent outer =>
      have hpending : pending 1 outer (event :: events) = pending 1 outer events :=
        pending_congr outer 1 1 _ _ fun n => by
          rw [Nat.add_comm 1 n]
          exact houter n
      simp only [pending, Nat.zero_add]
      rw [hinner, hpending]
      rfl

/-- Attributes that have all been resolved. -/
theorem resolved_of_mapM (raw : List RawAttribute) (attributes : List (String × String))
    (h : raw.mapM RawAttribute.resolve = .ok attributes) :
    attributes = raw.map fun a =>
      (String.ofList a.key, String.ofList ((unescape a.value).toOption.getD [])) := by
  induction raw generalizing attributes with
  | nil =>
      cases h
      rfl
  | cons a raw ih =>
      rw [List.mapM_cons, RawAttribute.resolve] at h
      cases hvalue : unescape a.value with
      | error fault =>
          rw [hvalue] at h
          cases h
      | ok value =>
          cases hraw : raw.mapM RawAttribute.resolve with
          | error failure =>
              rw [hvalue, hraw] at h
              cases h
          | ok more =>
              rw [hvalue, hraw] at h
              cases h
              rw [ih more hraw, List.map_cons, hvalue]
              rfl

/-- The element of a tag, with nothing in it. -/
def tagElement (tag : List Char) : Element :=
  { name := String.ofList (tagName tag), attributes := tagAttributes tag }

theorem eq_tagElement (tag : List Char) (e : Element) (h : elementOfTag tag = .ok e) :
    e = tagElement tag := by
  rw [elementOfTag] at h
  simp only [bind, Except.bind] at h
  split at h
  · cases h
  · next attributes hattributes =>
      split at h
      · cases h
      · cases h
        rw [resolved_of_mapM _ _ hattributes]
        rfl

/-- What a part does to the tree when it is accepted. -/
inductive Builder.Takes (b : Builder) : Event → Builder → Prop where
  | declaration (content : List Char) (d : Declaration) :
    Takes b (.declaration content) { b with declaration := some d }
  | opening (tag : List Char) (h : elementOfTag tag = .ok (tagElement tag)) :
    Takes b (.opening tag) { b with opened := tagElement tag :: b.opened }
  | empty (tag : List Char) (h : elementOfTag tag = .ok (tagElement tag)) :
    Takes b (.empty tag) (b.attach (tagElement tag))
  | closing (e : Element) (outer : List Element) (h : b.opened = e :: outer) :
    Takes b .closing ({ b with opened := outer }.attach e)
  | text (raw text : List Char) (h : unescape raw = .ok text) :
    Takes b (.text raw) (b.appendText text)
  | data (raw : List Char) : Takes b (.data raw) (b.appendText raw)

theorem takes_of_add (b b' : Builder) (event : Event) (h : b.add event = .ok b') :
    b.Takes event b' := by
  cases event with
  | declaration content =>
      rw [Builder.add] at h
      cases hdeclaration : declarationOf content with
      | error failure =>
          rw [hdeclaration] at h
          cases h
      | ok declaration =>
          rw [hdeclaration] at h
          cases h
          exact .declaration content declaration
  | opening tag =>
      rw [Builder.add] at h
      cases htag : elementOfTag tag with
      | error failure =>
          rw [htag] at h
          cases h
      | ok e =>
          rw [htag] at h
          cases h
          obtain rfl := eq_tagElement tag e htag
          exact .opening tag htag
  | empty tag =>
      rw [Builder.add] at h
      cases htag : elementOfTag tag with
      | error failure =>
          rw [htag] at h
          cases h
      | ok e =>
          rw [htag] at h
          cases h
          obtain rfl := eq_tagElement tag e htag
          exact .empty tag htag
  | closing =>
      rw [Builder.add] at h
      cases hopened : b.opened with
      | nil =>
          rw [hopened] at h
          cases h
      | cons e outer =>
          rw [hopened] at h
          cases h
          exact .closing e outer hopened
  | text raw =>
      rw [Builder.add] at h
      cases hraw : unescape raw with
      | error fault =>
          rw [hraw] at h
          cases h
      | ok text =>
          rw [hraw] at h
          cases h
          exact .text raw text hraw
  | data raw =>
      cases h
      exact .data raw

/-- A part that is added to the tree does not change what it foretells. -/
theorem foretold_of_takes (b b' : Builder) (event : Event) (events : List Event)
    (h : b.Takes event b') : b'.foretold events = b.foretold (event :: events) := by
  cases h with
  | declaration content d =>
      have hpending : pending 0 b.opened (.declaration content :: events) =
          pending 0 b.opened events :=
        pending_congr b.opened 0 0 _ _ fun n => by cases n <;> rfl
      rw [Builder.foretold, Builder.foretold, hpending]
      rfl
  | opening tag =>
      -- Whatever was open is one level further out now.
      have hpending : pending 0 b.opened (.opening tag :: events) = pending 1 b.opened events :=
        pending_congr b.opened 0 1 _ _ fun n => by
          rw [Nat.zero_add, Nat.add_comm 1 n]
          cases n <;> rfl
      rw [Builder.foretold, Builder.foretold, hpending, marks]
      simp [pending, tagElement, withPieces_none, Element.marksAll]
  | empty tag =>
      have hpending : pending 0 b.opened (.empty tag :: events) = pending 0 b.opened events :=
        pending_congr b.opened 0 0 _ _ fun n => by cases n <;> rfl
      rw [foretold_attach, Builder.foretold, hpending, marks, tagElement]
      simp [Element.marks, Element.marksAll]
  | closing e outer hopened =>
      -- The element has all its text, and what was open around it is one level further in.
      have hpending : pending 1 outer (.closing :: events) = pending 0 outer events :=
        pending_congr outer 1 0 _ _ fun n => by
          rw [Nat.zero_add, Nat.add_comm 1 n]
          cases n <;> rfl
      rw [foretold_attach, Builder.foretold, hopened, marks]
      simp [pending, hpending, pieces, withPieces, Element.marks_eq e]
  | text raw text hraw =>
      refine foretold_appendText b text (.text raw) events rfl ?_ fun depth => rfl
      rw [pieces, hraw]
      rfl
  | data raw => exact foretold_appendText b raw (.data raw) events rfl rfl fun depth => rfl

/-- Parts that are added one after the other. -/
theorem foretold_foldlM (events : List Event) (b b' : Builder)
    (h : events.foldlM Builder.add b = .ok b') : b'.foretold [] = b.foretold events := by
  induction events generalizing b with
  | nil =>
      cases h
      rfl
  | cons event events ih =>
      rw [List.foldlM_cons] at h
      cases hadd : b.add event with
      | error failure =>
          rw [hadd] at h
          cases h
      | ok next =>
          rw [hadd] at h
          rw [ih next h, foretold_of_takes b next event events (takes_of_add b next event hadd)]

/-- Whatever is blank is no bracket. -/
theorem ne_bracket_of_isSpace (c : Char) (h : isSpace c = true) : (c != '<') = true := by
  rw [bne_iff_ne]
  rintro rfl
  exact absurd h (by decide)

/-- The blanks in front of a text up to the next tag belong to it. -/
theorem takeWhile_dropWhile_isSpace (text : List Char) :
    (text.dropWhile isSpace).takeWhile (· != '<') =
      (text.takeWhile (· != '<')).dropWhile isSpace := by
  induction text with
  | nil => rfl
  | cons c text ih =>
      cases hc : isSpace c with
      | true =>
          rw [List.dropWhile_cons_of_pos hc,
            List.takeWhile_cons_of_pos (p := (· != '<')) (ne_bracket_of_isSpace c hc),
            List.dropWhile_cons_of_pos hc, ih]
      | false =>
          rw [List.dropWhile_cons_of_neg (by simp [hc])]
          cases hbracket : c != '<' with
          | true =>
              rw [List.takeWhile_cons_of_pos (p := (· != '<')) hbracket,
                List.dropWhile_cons_of_neg (by simp [hc])]
          | false =>
              rw [List.takeWhile_cons_of_neg (by simp [hbracket])]
              rfl

/-- The text in front of the next tag. -/
def Scanner.run (s : Scanner) : List Char :=
  s.rest.takeWhile (· != '<')

/-- What a step of the scanner delivers, and what becomes of the open tags. -/
inductive Scanner.Delivers (s next : Scanner) : Option Event → Prop where
  | nothing (h : next.opened = s.opened) : Delivers s next none
  | declaration (content : List Char) (h : next.opened = s.opened) :
    Delivers s next (some (.declaration content))
  | opening (tag : List Char) (h : next.opened = tagName tag :: s.opened) :
    Delivers s next (some (.opening tag))
  | empty (tag : List Char) (h : next.opened = s.opened) : Delivers s next (some (.empty tag))
  | closing (name : List Char) (h : s.opened = name :: next.opened) :
    Delivers s next (some .closing)
  | text (hrun : s.run.all isSpace = false) (h : next.opened = s.opened) :
    Delivers s next (some (.text (trimSpace s.run)))
  | data (raw : List Char) (h : next.opened = s.opened) : Delivers s next (some (.data raw))

/-- Behind a blank text the scanner is at its end or at a tag. -/
theorem dropWhile_of_blank_run (s : Scanner) (h : s.run.all isSpace = true) :
    s.rest.dropWhile isSpace = [] ∨ ∃ rest, s.rest.dropWhile isSpace = '<' :: rest := by
  have hempty : (s.rest.dropWhile isSpace).takeWhile (· != '<') = [] := by
    rw [takeWhile_dropWhile_isSpace]
    exact List.dropWhile_eq_nil_iff.mpr (List.all_eq_true.mp h)
  cases htext : s.rest.dropWhile isSpace with
  | nil => exact .inl rfl
  | cons c text =>
      rw [htext, List.takeWhile_eq_nil_iff] at hempty
      have hc : c = '<' := by simpa using hempty
      exact .inr ⟨text, by rw [hc]⟩

theorem delivers_of_bang (s next : Scanner) (offset : Nat) (text : List Char)
    (event : Option Event) (h : s.bang offset text = .delivered event next) :
    s.Delivers next event := by
  unfold Scanner.bang at h
  simp only [] at h
  split at h
  · cases h
  · split at h
    · cases h
    · split at h
      · cases h
        exact .data _ rfl
      · cases h
  · split at h
    · cases h
    · split at h
      · cases h
        exact .nothing rfl
      · cases h
  · split at h
    · split at h
      · cases h
      · split at h
        · cases h
        · split at h
          · cases h
          · cases h
            exact .nothing rfl
    · cases h

theorem delivers_of_closing (s next : Scanner) (offset : Nat) (text : List Char)
    (event : Option Event) (h : s.closing offset text = .delivered event next) :
    s.Delivers next event := by
  unfold Scanner.closing at h
  cases hopened : s.opened with
  | nil =>
      rw [hopened] at h
      cases h
  | cons expected opened =>
      rw [hopened] at h
      simp only [] at h
      generalize (if ((cutAtBracket text).1.drop 1).all isSpace then (cutAtBracket text).1.drop 1
        else trimSpaceEnd ((cutAtBracket text).1.drop 1)) = name at h
      split at h
      · cases h
        exact .closing expected hopened
      · cases h

theorem delivers_of_instruction (s next : Scanner) (offset : Nat) (text : List Char)
    (event : Option Event) (h : s.instruction offset text = .delivered event next) :
    s.Delivers next event := by
  unfold Scanner.instruction at h
  simp only [] at h
  split at h
  · split at h
    · cases h
      exact .declaration _ rfl
    · cases h
      exact .nothing rfl
  · cases h

theorem delivers_of_tag (s next : Scanner) (offset : Nat) (text : List Char)
    (event : Option Event) (h : s.tag offset text = .delivered event next) :
    s.Delivers next event := by
  unfold Scanner.tag at h
  split at h
  · cases h
  · simp only [] at h
    split at h
    · cases h
      exact .empty _ rfl
    · cases h
      exact .opening _ rfl

/-- All that a step of the scanner can come to, if it delivers something. -/
theorem delivers_of_step (s next : Scanner) (event : Option Event)
    (h : s.step = .delivered event next) : s.Delivers next event := by
  unfold Scanner.step at h
  simp only [] at h
  split at h
  · cases h
  · cases h
  · exact delivers_of_bang s next _ _ event h
  · exact delivers_of_closing s next _ _ event h
  · exact delivers_of_instruction s next _ _ event h
  · exact delivers_of_tag s next _ _ event h
  · next hnil _ _ _ _ htag =>
      cases h
      have hrun : trimSpaceEnd ((s.rest.dropWhile isSpace).takeWhile (· != '<')) =
          trimSpace s.run := by
        rw [takeWhile_dropWhile_isSpace]
        rfl
      rw [hrun]
      refine .text ?_ rfl
      -- Behind the blanks there is something that is no tag.
      rw [Bool.eq_false_iff]
      intro hblank
      rcases dropWhile_of_blank_run s hblank with hempty | ⟨rest, hbracket⟩
      · exact hnil hempty
      · exact htag rest hbracket

/-- A text that is not blank is delivered without the blanks around it. -/
theorem step_of_run (s : Scanner) (h : s.run.all isSpace = false) :
    ∃ next, s.step = .delivered (some (.text (trimSpace s.run))) next := by
  obtain ⟨offset, rest, opened⟩ := s
  have hsplit : rest.takeWhile isSpace ++ rest.dropWhile isSpace = rest :=
    List.takeWhile_append_dropWhile
  have hblanks : ∀ c ∈ rest.takeWhile isSpace, isSpace c = true :=
    fun c hc => List.mem_takeWhile_imp hc
  have htrim : trimSpaceEnd ((rest.dropWhile isSpace).takeWhile (· != '<')) =
      trimSpace (rest.takeWhile (· != '<')) := by
    rw [takeWhile_dropWhile_isSpace]
    rfl
  have hstep := step_blanks opened offset _ (rest.dropWhile isSpace) hblanks
  rw [hsplit] at hstep
  cases htext : rest.dropWhile isSpace with
  | nil =>
      -- Then everything is blank, the text in front of the next tag included.
      have hall := List.dropWhile_eq_nil_iff.mp htext
      rw [Scanner.run, List.all_eq_false] at h
      obtain ⟨c, hc, hspace⟩ := h
      exact absurd (hall c ((List.takeWhile_sublist _).subset hc)) hspace
  | cons c text =>
      have hspace : isSpace c = false := by
        have hhead := List.head?_dropWhile_not isSpace rest
        rw [htext] at hhead
        simpa only [List.head?_cons, Bool.not_eq_true] using hhead
      have hc : c ≠ '<' := by
        rintro rfl
        have hempty : (rest.takeWhile (· != '<')).dropWhile isSpace = [] := by
          rw [← takeWhile_dropWhile_isSpace, htext]
          rfl
        rw [Scanner.run, List.all_eq_true.mpr (List.dropWhile_eq_nil_iff.mp hempty)] at h
        cases h
      rw [htext, step_text opened _ c text hspace hc] at hstep
      rw [htext] at htrim
      rw [hstep, htrim]
      exact ⟨_, rfl⟩

/-- The names of the open tags behind a part, given those in front of it. There
    are none if a tag is closed and none is open. -/
def Event.shift : Event → List (List Char) → Option (List (List Char))
  | .opening tag, opened => some (tagName tag :: opened)
  | .closing, _ :: opened => some opened
  | .closing, [] => none
  | _, opened => some opened

/-- The names of the open elements, innermost first. -/
def Builder.names (b : Builder) : List (List Char) :=
  b.opened.map (·.name.toList)

theorem names_attach (b : Builder) (e : Element) : (b.attach e).names = b.names := by
  rw [Builder.attach, Builder.names, Builder.names]
  cases hopened : b.opened with
  | nil => simp
  | cons parent outer => rfl

theorem names_appendText (b : Builder) (text : List Char) :
    (b.appendText text).names = b.names := by
  rw [Builder.appendText, Builder.names, Builder.names]
  cases hopened : b.opened with
  | nil => rw [hopened]
  | cons parent outer => rfl

/-- So does the tree. -/
theorem shift_of_takes (b b' : Builder) (event : Event) (h : b.Takes event b') :
    event.shift b.names = some b'.names := by
  cases h with
  | declaration content d => rfl
  | opening tag =>
      rw [Event.shift, Builder.names, Builder.names, List.map_cons, tagElement,
        String.toList_ofList]
  | empty tag =>
      rw [names_attach]
      rfl
  | closing e outer hopened =>
      rw [names_attach, Builder.names, hopened]
      rfl
  | text raw text =>
      rw [names_appendText]
      rfl
  | data raw =>
      rw [names_appendText]
      rfl

/-- The scanner and the tree keep the same names. -/
theorem shift_of_delivers (s next : Scanner) (event : Option Event) (h : s.Delivers next event) :
    event.toList.foldlM (fun opened e => e.shift opened) s.opened = some next.opened := by
  cases h with
  | closing name h =>
      rw [h]
      rfl
  | nothing h | declaration content h | opening tag h | empty tag h | text hrun h | data raw h =>
      rw [h]
      rfl

theorem find_error (l : Listing) (key : String) (context : Context) (failure : Failure)
    (h : l.find key context = .error failure) : failure.fault ≠ .unexpectedClosing := by
  unfold Listing.find at h
  split at h
  · cases h
  · cases h
    nofun
  · cases h

theorem declarationOf_error (content : List Char) (failure : Failure)
    (h : declarationOf content = .error failure) : failure.fault ≠ .unexpectedClosing := by
  rw [declarationOf] at h
  simp only [bind, Except.bind, pure, Except.pure, throw, throwThe, MonadExceptOf.throw] at h
  split at h
  · split at h
    · split at h
      · next failure' hencoding =>
          cases h
          exact find_error _ _ _ _ hencoding
      · split at h
        · next failure' hstandalone =>
            cases h
            exact find_error _ _ _ _ hstandalone
        · cases h
    · cases h
      nofun
  · cases h
    nofun
  · cases h
    nofun

theorem resolve_error (raw : List RawAttribute) (failure : Failure)
    (h : raw.mapM RawAttribute.resolve = .error failure) : failure.fault ≠ .unexpectedClosing := by
  induction raw with
  | nil => cases h
  | cons a raw ih =>
      rw [List.mapM_cons, RawAttribute.resolve] at h
      cases hvalue : unescape a.value with
      | error fault =>
          rw [hvalue] at h
          cases h
          nofun
      | ok value =>
          cases hraw : raw.mapM RawAttribute.resolve with
          | error failure' =>
              rw [hvalue, hraw] at h
              cases h
              exact ih hraw
          | ok more =>
              rw [hvalue, hraw] at h
              cases h

theorem elementOfTag_error (tag : List Char) (failure : Failure)
    (h : elementOfTag tag = .error failure) : failure.fault ≠ .unexpectedClosing := by
  rw [elementOfTag] at h
  simp only [bind, Except.bind] at h
  split at h
  · next failure' hattributes =>
      cases h
      exact resolve_error _ _ hattributes
  · split at h
    · cases h
      nofun
    · cases h

/-- A closing tag is unexpected only if no element is open. -/
theorem shift_of_unexpectedClosing (b : Builder) (event : Event) (failure : Failure)
    (h : b.add event = .error failure) (hfault : failure.fault = .unexpectedClosing) :
    event.shift b.names = none := by
  cases event with
  | declaration content =>
      rw [Builder.add] at h
      cases hdeclaration : declarationOf content with
      | error failure' =>
          rw [hdeclaration] at h
          cases h
          exact absurd hfault (declarationOf_error content failure hdeclaration)
      | ok declaration =>
          rw [hdeclaration] at h
          cases h
  | opening tag | empty tag =>
      rw [Builder.add] at h
      cases htag : elementOfTag tag with
      | error failure' =>
          rw [htag] at h
          cases h
          exact absurd hfault (elementOfTag_error tag failure htag)
      | ok e =>
          rw [htag] at h
          cases h
  | closing =>
      rw [Builder.add] at h
      cases hopened : b.opened with
      | nil =>
          rw [Builder.names, hopened]
          rfl
      | cons e outer =>
          rw [hopened] at h
          cases h
  | text raw =>
      rw [Builder.add] at h
      cases hraw : unescape raw with
      | error fault =>
          rw [hraw] at h
          cases h
          cases hfault
      | ok text =>
          rw [hraw] at h
          cases h
  | data raw => cases h

/-- One part further, with the scanner and the tree in step: what the scanner
    has delivered is added, and they keep the same names. -/
theorem names_of_step (s next : Scanner) (b b' : Builder) (event : Option Event)
    (hnames : b.names = s.opened) (hstep : s.step = .delivered event next)
    (hadd : event.toList.foldlM Builder.add b = .ok b') : b'.names = next.opened := by
  have hshift := shift_of_delivers s next event (delivers_of_step s next event hstep)
  cases event with
  | none =>
      cases hadd
      rw [hnames]
      exact Option.some.inj hshift
  | some event =>
      simp only [Option.toList_some, List.foldlM_cons, List.foldlM_nil, bind_pure] at hshift hadd
      rw [← hnames, shift_of_takes b b' event (takes_of_add b b' event hadd)] at hshift
      exact Option.some.inj hshift

/-- A part that is delivered is never refused as a closing tag too many. -/
theorem fault_of_step (s next : Scanner) (b : Builder) (event : Option Event) (failure : Failure)
    (hnames : b.names = s.opened) (hstep : s.step = .delivered event next)
    (hadd : event.toList.foldlM Builder.add b = .error failure) :
    failure.fault ≠ .unexpectedClosing := by
  intro hfault
  have hshift := shift_of_delivers s next event (delivers_of_step s next event hstep)
  cases event with
  | none => cases hadd
  | some event =>
      simp only [Option.toList_some, List.foldlM_cons, List.foldlM_nil, bind_pure] at hshift hadd
      rw [← hnames, shift_of_unexpectedClosing b event failure hadd hfault] at hshift
      cases hshift

/-- The scanner and the tree, after some steps from the start of a text. -/
inductive Lockstep (text : List Char) : Scanner → Builder → Prop where
  | start : Lockstep text ⟨0, dropByteOrderMark text, []⟩ {}
  | step (s next : Scanner) (b b' : Builder) (event : Option Event) (h : Lockstep text s b)
    (hstep : s.step = .delivered event next)
    (hadd : event.toList.foldlM Builder.add b = .ok b') : Lockstep text next b'

/-- The open elements are those of the open tags, however far the two are. -/
theorem Lockstep.names {text : List Char} {s : Scanner} {b : Builder} (h : Lockstep text s b) :
    b.names = s.opened := by
  induction h with
  | start => rfl
  | step s next b b' event _ hstep hadd ih => exact names_of_step s next b b' event ih hstep hadd

/-- Nothing that is still to be scanned is refused as a closing tag too many. -/
theorem fault_of_scanFrom (fuel : Nat) (s : Scanner) (b : Builder) (hnames : b.names = s.opened)
    (failure : Failure) (h : (scanFrom fuel s).events.foldlM Builder.add b = .error failure) :
    failure.fault ≠ .unexpectedClosing := by
  induction fuel generalizing s b with
  | zero => cases h
  | succ fuel ih =>
      rw [scanFrom] at h
      cases hstep : s.step with
      | finished =>
          rw [hstep] at h
          cases h
      | failed offset fault =>
          rw [hstep] at h
          cases h
      | delivered event next =>
          rw [hstep] at h
          simp only [List.foldlM_append] at h
          cases hadd : event.toList.foldlM Builder.add b with
          | error failure' =>
              rw [hadd] at h
              cases h
              exact fault_of_step s next b event failure hnames hstep hadd
          | ok b' =>
              rw [hadd] at h
              exact ih next b' (names_of_step s next b b' event hnames hstep hadd) h

/-- No text at all is refused for an unexpected closing tag. -/
theorem parse_ne_unexpectedClosing (text : String) (context : Context) :
    Document.parse text ≠ .error ⟨.unexpectedClosing, context⟩ := by
  intro h
  rw [Document.parse, Scan.document] at h
  cases hadd : (scan text.toList).events.foldlM Builder.add {} with
  | error failure =>
      rw [hadd] at h
      cases h
      exact fault_of_scanFrom _ _ _ rfl _ hadd rfl
  | ok b =>
      rw [hadd] at h
      simp only [bind, Except.bind] at h
      split at h
      · cases h
      · unfold Builder.finish at h
        split at h <;> cases h

/-- What was looked into when a part was added, and found to be in order. -/
def Event.Accepted : Event → Prop
  | .opening tag | .empty tag => elementOfTag tag = .ok (tagElement tag)
  | .text raw => ∃ text, unescape raw = .ok text
  | _ => True

theorem accepted_of_foldlM (events : List Event) (b b' : Builder)
    (h : events.foldlM Builder.add b = .ok b') : ∀ event ∈ events, event.Accepted := by
  induction events generalizing b with
  | nil => exact fun event hevent => absurd hevent List.not_mem_nil
  | cons event events ih =>
      rw [List.foldlM_cons] at h
      cases hadd : b.add event with
      | error failure =>
          rw [hadd] at h
          cases h
      | ok next =>
          rw [hadd] at h
          refine List.forall_mem_cons.mpr ⟨?_, ih next h⟩
          cases takes_of_add b next event hadd with
          | opening tag htag => exact htag
          | empty tag htag => exact htag
          | text raw text hraw => exact ⟨text, hraw⟩
          | declaration | closing | data => trivial

/-- A text that is read has no fault, all its parts were accepted, and they left
    no element open. -/
theorem parse_ok (text : String) (d : Document) (h : Document.parse text = .ok d) :
    (scan text.toList).fault = none ∧ ∃ b, (scan text.toList).events.foldlM Builder.add {} = .ok b ∧
      b.opened = [] ∧ b.roots = d.roots := by
  rw [Document.parse, Scan.document] at h
  cases hadd : (scan text.toList).events.foldlM Builder.add {} with
  | error failure =>
      rw [hadd] at h
      cases h
  | ok b =>
      rw [hadd] at h
      simp only [bind, Except.bind] at h
      split at h
      · cases h
      · next hfault =>
          refine ⟨hfault, b, rfl, ?_⟩
          unfold Builder.finish at h
          split at h
          · cases h
          · cases h
          · next hopened _ =>
              cases h
              exact ⟨hopened, rfl⟩

/-- The tags of a tree are the tags that were delivered. -/
theorem parse_marks (text : String) (d : Document) (h : Document.parse text = .ok d) :
    Element.marksAll d.roots = marks (scan text.toList).events := by
  obtain ⟨-, b, hadd, hopened, hroots⟩ := parse_ok text d h
  -- At the end nothing is open, and at the start there is no tree yet.
  have hforetold := foretold_foldlM _ _ _ hadd
  rw [Builder.foretold, Builder.foretold, hopened, hroots] at hforetold
  simpa [pending, marks, Element.marksAll] using hforetold

/-- The scanner is at a comment, a document type or an instruction. -/
def Scanner.AtAside (s : Scanner) : Prop :=
  (∃ c rest, s.rest.dropWhile isSpace = '<' :: '!' :: c :: rest ∧ c ≠ '[') ∨
    ∃ rest, s.rest.dropWhile isSpace = '<' :: '?' :: rest

theorem bang_delivers_nothing (s next : Scanner) (offset : Nat) (c : Char) (text : List Char)
    (hc : c ≠ '[') (event : Option Event)
    (h : s.bang offset ('!' :: c :: text) = .delivered event next) : event = none := by
  unfold Scanner.bang at h
  simp only [List.drop_succ_cons, List.drop_zero] at h
  split at h
  · cases h
  · next heq =>
      cases heq
      exact absurd rfl hc
  · split at h
    · cases h
    · split at h
      · cases h
        rfl
      · cases h
  · split at h
    · split at h
      · cases h
      · split at h
        · cases h
        · split at h
          · cases h
          · cases h
            rfl
    · cases h

/-- An instruction that means something is a declaration. -/
theorem instruction_delivers_declaration (s next : Scanner) (offset : Nat) (text : List Char)
    (event : Option Event) (h : s.instruction offset text = .delivered event next) :
    event = none ∨ ∃ content, event = some (.declaration content) := by
  unfold Scanner.instruction at h
  simp only [] at h
  split at h
  · split at h
    · cases h
      exact .inr ⟨_, rfl⟩
    · cases h
      exact .inl rfl
  · cases h

theorem step_of_aside (s next : Scanner) (event : Option Event) (haside : s.AtAside)
    (h : s.step = .delivered event next) :
    event = none ∨ ∃ content, event = some (.declaration content) := by
  rw [Scanner.step] at h
  rcases haside with ⟨c, rest, htext, hc⟩ | ⟨rest, htext⟩
  · rw [htext] at h
    exact .inl (bang_delivers_nothing s next _ c rest hc event h)
  · rw [htext] at h
    exact instruction_delivers_declaration s next _ _ event h

/-- What is left out of the tree adds no tag and no text. -/
theorem aside_adds_nothing (s next : Scanner) (event : Option Event) (haside : s.AtAside)
    (h : s.step = .delivered event next) :
    marks s.scanRest.events = marks next.scanRest.events ∧
      ∀ depth, pieces depth s.scanRest.events = pieces depth next.scanRest.events := by
  rw [scanRest_of_delivered s next event h]
  rcases step_of_aside s next event haside h with rfl | ⟨content, rfl⟩
  · exact ⟨rfl, fun depth => rfl⟩
  · exact ⟨rfl, fun depth => by cases depth <;> rfl⟩

/-- A text is delivered exactly if what stands in front of the next tag is not
    blank, and without the blanks around it. -/
theorem step_text_iff (s : Scanner) (raw : List Char) :
    (∃ next, s.step = .delivered (some (.text raw)) next) ↔
      s.run.all isSpace = false ∧ raw = trimSpace s.run := by
  constructor
  · rintro ⟨next, hstep⟩
    cases delivers_of_step s next _ hstep with
    | text hrun => exact ⟨hrun, rfl⟩
  · rintro ⟨hrun, rfl⟩
    exact step_of_run s hrun

/-- The tree of a text has the tags that were delivered, in their order, and each
    text is where it stood. Texts are delivered if they are not blank, and asides
    add nothing. The scanner and the tree agree on what is open at any time, so no
    closing tag is unexpected. -/
theorem parse_tree_exact (text : String) :
    (∀ d, Document.parse text = .ok d →
      (scan text.toList).fault = none ∧
      (∀ event ∈ (scan text.toList).events, event.Accepted) ∧
      Element.marksAll d.roots = marks (scan text.toList).events) ∧
    (∀ (s : Scanner) (raw : List Char), (∃ next, s.step = .delivered (some (.text raw)) next) ↔
      s.run.all isSpace = false ∧ raw = trimSpace s.run) ∧
    (∀ (s next : Scanner) (event : Option Event), s.AtAside →
      s.step = .delivered event next →
      marks s.scanRest.events = marks next.scanRest.events ∧
        ∀ depth, pieces depth s.scanRest.events = pieces depth next.scanRest.events) ∧
    (∀ s b, Lockstep text.toList s b →
      b.opened.map (·.name.toList) = s.opened ∧ b.opened.length = s.opened.length) ∧
    ∀ context, Document.parse text ≠ .error ⟨.unexpectedClosing, context⟩ := by
  refine ⟨fun d h => ?_, step_text_iff, aside_adds_nothing, fun s b h => ?_,
    parse_ne_unexpectedClosing text⟩
  · obtain ⟨hfault, b, hadd, -⟩ := parse_ok text d h
    exact ⟨hfault, accepted_of_foldlM _ _ _ hadd, parse_marks text d h⟩
  · exact ⟨h.names, by rw [← h.names, Builder.names, List.length_map]⟩

/-- A text on both sides of a child and of a comment. -/
theorem parse_tree_exact_mixed :
    ∃ d, Document.parse "<a k='1&amp;2'> t <b/> u<!-- c --> v<![CDATA[ w ]]></a>" = .ok d ∧
      Element.marksAll d.roots = [.opening "a" [("k", "1&2")] (some "tuv w "),
        .opening "b" [] none, .closing, .closing] := by
  have hread : (Document.parse
      "<a k='1&amp;2'> t <b/> u<!-- c --> v<![CDATA[ w ]]></a>").toOption.isSome = true := by
    decide +kernel
  cases hparse : Document.parse "<a k='1&amp;2'> t <b/> u<!-- c --> v<![CDATA[ w ]]></a>" with
  | error failure =>
      rw [hparse] at hread
      cases hread
  | ok d =>
      obtain ⟨-, -, hmarks⟩ := (parse_tree_exact _).1 d hparse
      exact ⟨d, rfl, hmarks.trans (by decide +kernel)⟩

end SchemaRename.Markup
