import SchemaRename.Cleanup
import SchemaRename.Proofs.Glob.Listing
import SchemaRename.Proofs.Markup.Children

/-!
# What Is Tied to a Prefix

The verdict of a cleanup, said without the way it is reached.

An entry is tied to a prefix by the part of its path that is searched, or by
what is in it. What is in a file counts in two cases: a field definition
whose target has the prefix, and a layout that places something with the
prefix. Everything else is kept, and folders that are kept are looked into.

## Main definitions

* `Contains`: A text has another one in it.
* `PointsAt`, `PlacesOf`: What ties a field definition and a layout.
* `ContentTied`: What ties a file by its name and content.
* `FileTied`: The file that a path leads to is tied by what is in it.

## Theorems

* `judge_eq_remove_iff`, `judge_eq_descend_iff`: The verdict on an entry.
-/

namespace SchemaRename

open SchemaRename.Markup

/-- A text has another one in it. -/
def Contains (text needle : String) : Prop :=
  needle.toList <:+: text.toList

theorem occursIn_iff (needle text : List Char) :
    Text.occursIn needle text = true ↔ needle <:+: text := by
  induction text with
  | nil => simp [Text.occursIn]
  | cons c rest ih =>
      rw [Text.occursIn, Bool.or_eq_true, ih, List.isPrefixOf_iff_prefix, List.infix_cons_iff]

theorem holds_iff (text needle : String) : holds text needle = true ↔ Contains text needle :=
  occursIn_iff needle.toList text.toList

/-- What a text contains, a text with more behind it contains. -/
theorem Contains.append {text needle : String} (h : Contains text needle) (more : String) :
    Contains (text ++ more) needle := by
  rw [Contains, String.toList_append]
  exact h.trans (List.infix_append' [] text.toList more.toList)

/-- A field definition that points at something with the prefix. -/
def PointsAt (deprecated : String) (d : Document) : Prop :=
  ∃ root ∈ d.roots, ∃ target, root.HasFirstValue "referenceTo" target ∧
    Contains target deprecated

/-- A layout that places something with the prefix. -/
def PlacesOf (deprecated : String) (d : Document) : Prop :=
  ∃ root ∈ d.roots, ∃ path, (path = layoutFieldPath ∨ path = layoutActionPath) ∧
    ∃ e value, root.Reaches path e ∧ e.text = some value ∧ Contains value deprecated

theorem referencesPrefix_iff (deprecated : String) (d : Document) :
    referencesPrefix deprecated d = true ↔ PointsAt deprecated d := by
  simp [referencesPrefix, PointsAt, ← Element.firstValue?_eq_some_iff, List.any_eq_true,
    Option.any_eq_true, holds_iff]

theorem placesPrefix_iff (deprecated : String) (d : Document) :
    placesPrefix deprecated d = true ↔ PlacesOf deprecated d := by
  simp only [placesPrefix, PlacesOf, List.any_eq_true, List.mem_append, Element.mem_descendantsAt,
    Option.any_eq_true, holds_iff]
  constructor
  · rintro ⟨root, hroot, e, hreaches | hreaches, value, htext, hcontains⟩
    · exact ⟨root, hroot, _, Or.inl rfl, e, value, hreaches, htext, hcontains⟩
    · exact ⟨root, hroot, _, Or.inr rfl, e, value, hreaches, htext, hcontains⟩
  · rintro ⟨root, hroot, path, rfl | rfl, e, value, hreaches, htext, hcontains⟩
    · exact ⟨root, hroot, e, Or.inl hreaches, value, htext, hcontains⟩
    · exact ⟨root, hroot, e, Or.inr hreaches, value, htext, hcontains⟩

/-- A file name that ends in a suffix, in any letter case. -/
def EndsIn (name suffix : String) : Prop :=
  suffix.toList <:+ Text.lowerCase name.toList

theorem hasSuffix_iff (p : Path) (name suffix : String) (hname : p.fileName? = some name) :
    hasSuffix p suffix = true ↔ EndsIn name suffix := by
  rw [hasSuffix, hname, Option.any_some, List.isSuffixOf_iff_suffix]
  rfl

/-- No name is that of a field definition and that of a layout. -/
theorem not_endsIn_both (name : String) (hfield : EndsIn name fieldFileSuffix) :
    ¬ EndsIn name layoutFileSuffix := by
  intro hlayout
  have hsuffix : fieldFileSuffix.toList <:+ layoutFileSuffix.toList :=
    List.suffix_of_suffix_length_le hfield hlayout (by decide)
  exact absurd hsuffix (by decide)

/-- What ties a file by its name and content. -/
def ContentTied (name content deprecated : String) : Prop :=
  ∃ document, Document.parse content = .ok document ∧
    ((EndsIn name fieldFileSuffix ∧ PointsAt deprecated document) ∨
      (EndsIn name layoutFileSuffix ∧ PlacesOf deprecated document))

/-- The file that a path leads to is tied by what is in it. -/
def FileTied (t : FileTree) (p : Path) (deprecated : String) : Prop :=
  ∃ name content, p.fileName? = some name ∧ t.readText p = .ok content ∧
    ContentTied name content deprecated

theorem judgeContent_eq_remove_iff (t : FileTree) (p : Path) (isTied : Document → Bool) :
    judgeContent t p isTied = .remove ↔ ∃ content document, t.readText p = .ok content ∧
      Document.parse content = .ok document ∧ isTied document = true := by
  rw [judgeContent]
  cases hread : t.readText p with
  | error e => simp
  | ok content =>
      cases hparse : Document.parse content with
      | error e => simp [hparse]
      | ok document =>
          simp only [Except.ok.injEq, exists_and_left, exists_eq_left', hparse]
          split <;> simp_all

/-- What can be read is no folder. -/
theorem isFolder_of_readText (t : FileTree) (p : Path) (content : String)
    (h : t.readText p = .ok content) : t.isFolder p = false := by
  rw [FileTree.isFolder, FileTree.entryAt?]
  rw [FileTree.readText, FileTree.readContent] at h
  cases hlocate : t.locate true p with
  | error e => rfl
  | ok l =>
      simp only [hlocate, bind, Except.bind] at h
      cases hget : t.get? l with
      | none => simp [hget]
      | some entry =>
          cases entry with
          | folder => simp [hget, throw, throwThe, MonadExceptOf.throw] at h
          | file content => simp [hget]
          | link target => simp [hget]

/-- The names of files that are looked into. -/
theorem fileName?_of_hasSuffix (p : Path) (suffix : String) (h : hasSuffix p suffix = true) :
    ∃ name, p.fileName? = some name := by
  rw [hasSuffix, Option.any_eq_true] at h
  obtain ⟨name, hname, -⟩ := h
  exact ⟨name, hname⟩

/-- An entry is removed for its path or for what is in it. -/
theorem judge_eq_remove_iff (t : FileTree) (root p : Path) (deprecated : String) :
    judge t root p deprecated = .remove ↔
      Contains (searchedPart root p) deprecated ∨ FileTied t p deprecated := by
  rw [judge]
  by_cases hpath : Contains (searchedPart root p) deprecated
  · rw [if_pos ((holds_iff _ _).mpr hpath)]
    exact ⟨fun _ => Or.inl hpath, fun _ => rfl⟩
  rw [if_neg fun h => hpath ((holds_iff _ _).mp h), or_iff_right hpath]
  by_cases hfolder : t.isFolder p = true
  · rw [if_pos hfolder]
    constructor
    · intro h
      cases h
    · rintro ⟨name, content, -, hread, -⟩
      rw [isFolder_of_readText t p content hread] at hfolder
      cases hfolder
  rw [if_neg hfolder]
  by_cases hfield : hasSuffix p fieldFileSuffix = true
  · obtain ⟨name, hname⟩ := fileName?_of_hasSuffix p _ hfield
    rw [if_pos hfield, judgeContent_eq_remove_iff]
    rw [hasSuffix_iff p name _ hname] at hfield
    constructor
    · rintro ⟨content, document, hread, hparse, htied⟩
      exact ⟨name, content, hname, hread, document, hparse,
        Or.inl ⟨hfield, (referencesPrefix_iff _ _).mp htied⟩⟩
    · rintro ⟨name', content, hname', hread, document, hparse, ⟨-, htied⟩ | ⟨hlayout, -⟩⟩
      · exact ⟨content, document, hread, hparse, (referencesPrefix_iff _ _).mpr htied⟩
      · rw [hname, Option.some.injEq] at hname'
        exact absurd (hname' ▸ hlayout) (not_endsIn_both name hfield)
  rw [if_neg hfield]
  by_cases hlayout : hasSuffix p layoutFileSuffix = true
  · obtain ⟨name, hname⟩ := fileName?_of_hasSuffix p _ hlayout
    rw [if_pos hlayout, judgeContent_eq_remove_iff]
    rw [hasSuffix_iff p name _ hname] at hlayout hfield
    constructor
    · rintro ⟨content, document, hread, hparse, htied⟩
      exact ⟨name, content, hname, hread, document, hparse,
        Or.inr ⟨hlayout, (placesPrefix_iff _ _).mp htied⟩⟩
    · rintro ⟨name', content, hname', hread, document, hparse, ⟨hfield', -⟩ | ⟨-, htied⟩⟩
      · rw [hname, Option.some.injEq] at hname'
        exact absurd (hname' ▸ hfield') hfield
      · exact ⟨content, document, hread, hparse, (placesPrefix_iff _ _).mpr htied⟩
  · rw [if_neg hlayout]
    constructor
    · intro h
      cases h
    · rintro ⟨name, content, hname, -, document, -, ⟨hfield', -⟩ | ⟨hlayout', -⟩⟩
      · exact absurd ((hasSuffix_iff p name _ hname).mpr hfield') hfield
      · exact absurd ((hasSuffix_iff p name _ hname).mpr hlayout') hlayout

/-- A folder is looked into if its path does not tie it. -/
theorem judge_eq_descend_iff (t : FileTree) (root p : Path) (deprecated : String) :
    judge t root p deprecated = .descend ↔
      ¬ Contains (searchedPart root p) deprecated ∧ t.isFolder p = true := by
  have hcontent : ∀ isTied, judgeContent t p isTied ≠ .descend := by
    intro isTied
    rw [judgeContent]
    split
    · simp
    · split
      · simp
      · split <;> simp
  rw [judge, ← holds_iff]
  split
  · next h => simp [h]
  · next h =>
      split
      · next hfolder => simp [h, hfolder]
      · next hfolder =>
          rw [iff_false_right fun h => hfolder h.2]
          split
          · exact hcontent _
          · split
            · exact hcontent _
            · simp

theorem childrenPattern_eq (p : Path) :
    childrenPattern p = Glob.escape p.text ++ String.ofList (Glob.stars 1) :=
  rfl

theorem candidatesPattern_eq (p : Path) :
    candidatesPattern p = Glob.escape p.text ++ String.ofList (Glob.stars 2) :=
  rfl

/-- The entries that a pattern of stars lists below a path. -/
theorem listEntries_stars {t : FileTree} (ht : t.IsOrderly) (p : Path) (hp : p.Undotted)
    (n : Nat) :
    listEntries t (Glob.escape p.text ++ String.ofList (Glob.stars (n + 1))) =
      .ok ((Glob.namesAt t (n + 1) (Glob.spelled p)).map p.tidy.extend) := by
  rw [listEntries, Glob.find_eq ht p hp n]

end SchemaRename
