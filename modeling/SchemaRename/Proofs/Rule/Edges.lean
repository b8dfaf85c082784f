import Mathlib.Data.List.TakeWhile
import SchemaRename.Proofs.Rule.Blocks
import SchemaRename.Proofs.Substitution.Fields

/-!
# The Edges of an Identifier

Built-in templates, seen as conditions on the fields of a line.

Every built-in template puts a separator directly on the left of the
identifier, and on the right another one or the end of the line. So the
identifier is always a whole field. What a template asks for beyond that is
about the fields next to it: that the one on the left ends with `SELECT`, that
the one on the right starts with `FROM`, or that it is empty, between the two
characters of a closing tag.

The catalogs are checked against this once, template by template. From then
on a rule is known by its edges, and no proof looks at a catalog again.

## Main definitions

* `RightEdge`, `Edges`: What a template asks for around an identifier.
* `Edges.isSound`: What all built-in edges have in common.
* `Edges.text`: An identifier with its edges.
* `Template.edges`: The edges of a template.
* `Rule.Renames`: A rule known by its edges.
* `RenameMap.isPlain`: Maps with nothing but built-in templates and plain
  identifiers.

## Theorems

* `hasEdges_of_mem_builtIn`: Every built-in template has sound edges.
* `renames_of_buildRule`: The rule of a built-in template.
* `rules_eq_flatMap`: The rules of a plain map, identifier by identifier.
* `exists_rules`: A plain map has rules, all of them known by their edges.
-/

namespace SchemaRename

open SchemaRename.Pattern SchemaRename.Text SchemaRename.Line

/-- What a template asks for on the right of an identifier. -/
inductive RightEdge where
  /-- Nothing may follow. -/
  | lineEnd
  /-- A separator, and then the start of the next field. -/
  | sep (c : Char) (word : List Char)
  /-- Two separators. -/
  | pair (c d : Char)
deriving Repr, DecidableEq

/-- What a template asks for around an identifier. -/
structure Edges where
  /-- The end of the field on the left. -/
  word : List Char
  left : Char
  right : RightEdge
deriving Repr, DecidableEq

namespace RightEdge

def chars : RightEdge → List Char
  | .lineEnd => []
  | .sep c word => c :: word
  | .pair c d => [c, d]

/-- The start of the next field. -/
def word : RightEdge → List Char
  | .sep _ word => word
  | _ => []

def isLineEnd : RightEdge → Bool
  | .lineEnd => true
  | _ => false

def ofChars : List Char → RightEdge
  | [] => .lineEnd
  | [c, d] => if isSeparator d then .pair c d else .sep c [d]
  | c :: word => .sep c word

end RightEdge

def selectWord : List Char :=
  ['S', 'E', 'L', 'E', 'C', 'T']

def fromWord : List Char :=
  ['F', 'R', 'O', 'M']

/-- A separator that agrees only with itself. -/
def isAsciiSeparator (c : Char) : Bool :=
  c.toNat < 0x80 && isSeparator c

namespace Edges

/-- What all built-in edges have in common: at most one of the fields next to
    the identifier has to contain something, and a pair of separators does
    not end with the one on the left. -/
def isSound (e : Edges) : Bool :=
  isAsciiSeparator e.left && (e.word == [] || e.word == selectWord) &&
    match e.right with
    | .lineEnd => true
    | .sep c word => isAsciiSeparator c && (word == [] || word == fromWord && e.word == [])
    | .pair c d => isAsciiSeparator c && isAsciiSeparator d && d != e.left && e.word == []

def text (e : Edges) (id : List Char) : List Char :=
  e.word ++ e.left :: (id ++ e.right.chars)

def needle (e : Edges) (anyCase : Bool) (id : List Char) : Needle :=
  ⟨e.text id, anyCase, e.right.isLineEnd⟩

theorem text_ne_nil (e : Edges) (id : List Char) : e.text id ≠ [] :=
  List.append_ne_nil_of_right_ne_nil _ (List.cons_ne_nil _ _)

end Edges

def Template.edges (t : Template) : Edges where
  word := t.before.toList.dropLast
  left := t.before.toList.getLastD ' '
  right := if t.isEndOfLine then .lineEnd else .ofChars t.after.toList

/-- Whether a template consists of sound edges and nothing else. -/
def Template.hasEdges (t : Template) : Bool :=
  t.edges.isSound && t.before.toList == t.edges.word ++ [t.edges.left] &&
    t.isEndOfLine == t.edges.right.isLineEnd &&
    (if t.isEndOfLine then [] else t.after.toList) == t.edges.right.chars &&
    t.replacementPrefix.isNone && t.replacementSuffix.isNone

theorem hasEdges_of_mem_builtIn :
    ∀ t ∈ TemplateSet.builtIn.objects ++ TemplateSet.builtIn.fields, t.hasEdges = true := by
  decide +kernel

/-- Whether a text can be an identifier. -/
def isIdentifier (id : List Char) : Bool :=
  !id.isEmpty && id.all isPlainChar

/-- A rule that looks for an identifier between edges and puts another one
    there. -/
structure Rule.Renames (r : Rule) (e : Edges) : Prop where
  sound : e.isSound = true
  finds : Finds r.matcher (e.needle (!r.caseSensitive) r.oldId.toList)
  replaces : r.replacement.toList = e.text r.newId.toList
  old : isIdentifier r.oldId.toList = true
  new : isIdentifier r.newId.toList = true

/-- The needle of a template with edges is the identifier between them, and
    so is its replacement. -/
theorem Template.texts_of_hasEdges (t : Template) (h : t.hasEdges = true) (caseSensitive : Bool)
    (oldId newId : String) :
    t.needle caseSensitive oldId = t.edges.needle (!caseSensitive) oldId.toList ∧
      (t.replacement newId).toList = t.edges.text newId.toList := by
  simp only [Template.hasEdges, Bool.and_eq_true, beq_iff_eq, Option.isNone_iff_eq_none] at h
  rcases h with ⟨⟨⟨⟨⟨_, hbefore⟩, hend⟩, hafter⟩, hprefix⟩, hsuffix⟩
  -- Needle and replacement put different identifiers in the same place.
  have htext : ∀ id : List Char, t.before.toList ++ id ++
      (if t.isEndOfLine then [] else t.after.toList) = t.edges.text id := by
    intro id
    rw [hafter, hbefore, Edges.text, List.append_assoc, List.append_assoc]
    rfl
  constructor
  · rw [Template.needle, htext, hend]
    rfl
  · have hempty : (if t.isEndOfLine then "" else t.after).toList =
        if t.isEndOfLine then [] else t.after.toList := by
      split
      · rfl
      · rfl
    rw [← htext, Template.replacement, hprefix, hsuffix]
    simp only [Option.getD_none, String.toList_append, hempty, String.reduceToList,
      List.append_nil, List.nil_append]

def RuleSource.isPlain (s : RuleSource) : Bool :=
  isIdentifier s.oldId.toList && isIdentifier s.newId.toList

/-- A template with edges and plain names make a rule that is known by the
    edges. -/
theorem renames_of_buildRule (g : Globals) (s : RuleSource) (t : Template)
    (hbefore : g.patternBefore = none) (hafter : g.patternAfter = none)
    (hs : s.isPlain = true) (ht : t.hasEdges = true) :
    ∃ r, buildRule g s t = .ok r ∧ r.oldId = s.oldId ∧ r.newId = s.newId ∧
      r.Renames t.edges := by
  rcases exists_buildRule g s t hbefore hafter with ⟨r, hr, hold, hnew, hcase, hrepl, hfinds⟩
  rcases t.texts_of_hasEdges ht s.caseSensitive s.oldId s.newId with ⟨hneedle, htext⟩
  rw [RuleSource.isPlain, Bool.and_eq_true] at hs
  have hsound : t.edges.isSound = true := by
    simp only [Template.hasEdges, Bool.and_eq_true] at ht
    exact ht.1.1.1.1.1
  refine ⟨r, hr, hold, hnew, hsound, ?_, ?_, ?_, ?_⟩
  · rw [hcase, hold, ← hneedle]
    exact hfinds
  · rw [hrepl, htext, hnew]
  · rw [hold]
    exact hs.1
  · rw [hnew]
    exact hs.2

def RenameMap.sources (m : RenameMap) : List RuleSource :=
  m.objects.flatMap fun object => object.source :: object.fields.map FieldRename.source

/-- Whether a map changes nothing about patterns and templates, and all its
    names are identifiers. -/
def RenameMap.isPlain (m : RenameMap) : Bool :=
  m.globals.patternBefore.isNone && m.globals.patternAfter.isNone &&
    m.globals.objectOverrides.isEmpty && m.globals.fieldOverrides.isEmpty &&
    m.sources.all RuleSource.isPlain

theorem not_isBlank_of_isPlainChar (c : Char) (h : isPlainChar c = true) : isBlank c = false := by
  have hall : ∀ n : Fin 0x80, isPlainChar (Char.ofNat n) = true →
      isBlank (Char.ofNat n) = false := by
    decide
  have hc := hall ⟨c.toNat, toNat_of_isPlainChar c h⟩
  rw [Char.ofNat_toNat] at hc
  exact hc h

theorem requireText_of_isIdentifier (key id : String) (h : isIdentifier id.toList = true) :
    requireText key id = .ok () := by
  rw [isIdentifier, Bool.and_eq_true, Bool.not_eq_true', List.all_eq_true] at h
  rw [requireText]
  cases hid : id.toList with
  | nil => exact absurd h.1 (by rw [hid]; decide)
  | cons c rest =>
      rw [hid] at h
      -- The first character is not blank, so trimming leaves it.
      have hblank := not_isBlank_of_isPlainChar c (h.2 c List.mem_cons_self)
      rw [trim, trimStart_append_of_not_isBlank hblank, trimEnd, if_neg]
      rw [List.isEmpty_iff, List.reverse_eq_nil_iff, List.dropWhile_eq_nil_iff]
      intro hall
      exact absurd (hall c (List.mem_reverse.mpr List.mem_cons_self))
        (by rw [hblank]; exact Bool.false_ne_true)

theorem checkFields_of_isPlain (index : Nat) (fields : List FieldRename) : ∀ (k : Nat),
    (∀ f ∈ fields, f.source.isPlain = true) → checkFields index k fields = .ok () := by
  induction fields with
  | nil => intro k _; rfl
  | cons f fields ih =>
      intro k h
      have hf := h f List.mem_cons_self
      rw [RuleSource.isPlain, Bool.and_eq_true] at hf
      rw [checkFields, requireText_of_isIdentifier _ f.previousField hf.1,
        requireText_of_isIdentifier _ f.newField hf.2]
      exact ih (k + 1) (fun f' hf' => h f' (List.mem_cons_of_mem f hf'))

theorem check_of_isPlain (object : ObjectRename) (index : Nat) (h : object.source.isPlain = true)
    (hfields : ∀ f ∈ object.fields, f.source.isPlain = true) :
    object.check index = .ok () := by
  rw [RuleSource.isPlain, Bool.and_eq_true] at h
  rw [ObjectRename.check, requireText_of_isIdentifier _ object.previousObject h.1,
    requireText_of_isIdentifier _ object.newObject h.2]
  exact checkFields_of_isPlain index object.fields 0 hfields

theorem checkObjects_of_isPlain (objects : List ObjectRename) : ∀ (index : Nat),
    (∀ object ∈ objects, ∀ s ∈ object.sources, s.isPlain = true) →
      checkObjects index objects = .ok () := by
  induction objects with
  | nil => intro _ _; rfl
  | cons object objects ih =>
      intro index h
      have hown := h object List.mem_cons_self
      have hcheck : object.check index = .ok () :=
        check_of_isPlain object index (hown _ List.mem_cons_self)
          (fun f hf => hown _ (List.mem_cons_of_mem _ (List.mem_map_of_mem hf)))
      rw [checkObjects, hcheck]
      exact ih (index + 1) (fun o ho => h o (List.mem_cons_of_mem object ho))

/-- A rule that renames one of some identifiers, known by its edges. -/
def Rule.Serves (r : Rule) (sources : List RuleSource) : Prop :=
  ∃ s ∈ sources, r.oldId = s.oldId ∧ r.newId = s.newId ∧ ∃ e, r.Renames e

/-- The rules of a plain map are the blocks of its identifiers, and each of them
    renames its identifier between sound edges. -/
theorem rules_eq_flatMap (m : RenameMap) (expression : String) (h : m.isPlain = true) :
    m.rules expression = .ok (m.sources.flatMap (·.block m.globals .builtIn)) ∧
      ∀ s ∈ m.sources, ∀ r ∈ s.block m.globals .builtIn, r.Serves [s] := by
  simp only [RenameMap.isPlain, Bool.and_eq_true, Option.isNone_iff_eq_none, List.isEmpty_iff,
    List.all_eq_true] at h
  rcases h with ⟨⟨⟨⟨hbefore, hafter⟩, hobjects⟩, hfields⟩, hsources⟩
  -- Without overrides the catalogs are the built-in ones, for any expression.
  have htemplates : m.templates expression = .builtIn := by
    rw [RenameMap.templates, hobjects, hfields]
    rfl
  constructor
  · rw [RenameMap.rules, htemplates]
    refine compileRules_eq m.globals hbefore hafter _ m.objects
      (checkObjects_of_isPlain m.objects 0 ?_)
    intro object hobject s hs
    exact hsources s (List.mem_flatMap.mpr ⟨object, hobject, hs⟩)
  · intro s hs r hr
    rcases (mem_block_iff _ _ s r).mp hr with ⟨t, ht, hbuild⟩
    have hedges : t.hasEdges = true := by
      refine hasEdges_of_mem_builtIn t ?_
      cases hcategory : s.category with
      | object =>
          rw [hcategory] at ht
          exact List.mem_append_left _ ht
      | field =>
          rw [hcategory] at ht
          exact List.mem_append_right _ ht
    rcases renames_of_buildRule m.globals s t hbefore hafter (hsources s hs) hedges
      with ⟨q, hq, hold, hnew, hrenames⟩
    obtain rfl : q = r := Except.ok.inj (hq.symm.trans hbuild)
    exact ⟨s, List.mem_cons_self, hold, hnew, t.edges, hrenames⟩

/-- A plain map has rules, and each of them renames an identifier of the map
    between sound edges. -/
theorem exists_rules (m : RenameMap) (expression : String) (h : m.isPlain = true) :
    ∃ rules, m.rules expression = .ok rules ∧ ∀ r ∈ rules, r.Serves m.sources := by
  rcases rules_eq_flatMap m expression h with ⟨hrules, hserves⟩
  refine ⟨_, hrules, ?_⟩
  intro r hr
  rcases List.mem_flatMap.mp hr with ⟨s, hs, hr⟩
  rcases hserves s hs r hr with ⟨s', hs', hrest⟩
  rw [List.mem_singleton.mp hs'] at hrest
  exact ⟨s, hs, hrest⟩

end SchemaRename
