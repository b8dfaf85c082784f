import SchemaRename.Proofs.Glob.Shape
import SchemaRename.Proofs.Run.Batches

/-!
# Batches that Rewrite in Place

What substitutions leave of a tree.

A substitution puts a new text where the old one was. The text goes through a
temporary file, and so a temporary file that was there before is lost; in a
tree without such files nothing comes and nothing goes. So the expressions
behind a substitution select the files that they would have selected before
it, and find in them what was there before, unless the substitution has been
to the same file.

Migrations are another matter, since they write files that were not there.

## Main definitions

* `FileTree.Rewritten`: A tree in which the files at some locations have
  other texts.
* `selectedPlaces`: Where the files of an expression are.
* `RewritesApart`: Expressions that rewrite every file at most once.

## Theorems

* `rewritten_substituteFile`: One file of a batch.
* `runExpressions_rewritten`: All the expressions of a run.
-/

namespace SchemaRename

namespace FileTree

/-- There is no temporary file. -/
def HasNoTemporaries (t : FileTree) : Prop :=
  ∀ l, IsTemporary l → t.get? l = none

/-- Whether there is no temporary file, checked entry by entry. -/
def hasNoTemporaries (t : FileTree) : Bool :=
  t.entries.all fun e => e.1.getLast?.all fun n => !temporarySuffix.toList.isSuffixOf n.toList

theorem hasNoTemporaries_of_check (t : FileTree) (h : t.hasNoTemporaries = true) :
    t.HasNoTemporaries := by
  rintro l ⟨folder, name, rfl⟩
  rw [Option.eq_none_iff_forall_ne_some]
  intro e he
  have hentry := List.all_eq_true.mp h _ (mem_of_get? t (by simp) he)
  simp only [List.getLast?_concat, Option.all_some, String.toList_append, Bool.not_eq_true',
    List.isSuffixOf_iff_suffix.mpr (List.suffix_append name.toList temporarySuffix.toList),
    Bool.true_eq_false] at hentry

/-- A tree of the same shape, in which the files at some locations may have
    other texts. -/
structure Rewritten (t t' : FileTree) (ls : List Location) : Prop extends SameShape t t' where
  plain : t'.IsPlain
  frame : ∀ m, m ∉ ls → t'.get? m = t.get? m

theorem Rewritten.refl {t : FileTree} (ht : t.IsPlain) (ls : List Location) : Rewritten t t ls :=
  ⟨SameShape.refl t, ht, fun _ _ => rfl⟩

theorem Rewritten.trans {t t' t'' : FileTree} {ls ls' : List Location} (h : Rewritten t t' ls)
    (h' : Rewritten t' t'' ls') : Rewritten t t'' (ls ++ ls') := by
  refine ⟨h.toSameShape.trans h'.toSameShape, h'.plain, ?_⟩
  intro m hm
  rw [List.mem_append, not_or] at hm
  exact (h'.frame m hm.2).trans (h.frame m hm.1)

theorem Rewritten.mono {t t' : FileTree} {ls ls' : List Location} (h : Rewritten t t' ls)
    (hls : ∀ l ∈ ls, l ∈ ls') : Rewritten t t' ls' :=
  ⟨h.toSameShape, h.plain, fun m hm => h.frame m fun hmem => hm (hls m hmem)⟩

theorem Rewritten.noTemporaries {t t' : FileTree} {ls : List Location} (h : Rewritten t t' ls)
    (hclean : t.HasNoTemporaries) : t'.HasNoTemporaries := by
  intro l hl
  have hpresent := h.present l
  rw [hclean l hl] at hpresent
  simpa using hpresent

end FileTree

open FileTree

section

variable {t : FileTree} (ht : t.IsPlain) (hclean : t.HasNoTemporaries)
include ht hclean

/-- A text that replaces another one, or fails to. -/
theorem rewritten_writeAtomic (p : Path) (before text operation : String)
    (hbefore : t.readText p = .ok before) :
    Rewritten t (t.writeAtomic p text operation).2 (t.place? p).toList := by
  obtain ⟨l, hplace, hl⟩ := (readText_eq_ok_iff ht p before).mp hbefore
  rcases writeAtomic_cases ht p text operation with
    ⟨e, t', heq, htidied⟩ | ⟨l', t', heq, hplace', hreplaced⟩
  · -- A write that fails loses a temporary file at most, and there is none to lose.
    have hsame : ∀ m, t'.get? m = t.get? m := by
      intro m
      rcases htidied.frame m with hsame | ⟨htemporary, hnone⟩
      · exact hsame
      · rw [hnone, hclean m htemporary]
    rw [heq]
    exact ⟨⟨htidied.folders, fun m => by rw [hsame]⟩, htidied.plain, fun m _ => hsame m⟩
  · obtain rfl : l' = l := Option.some.inj (hplace'.symm.trans hplace)
    have hframe : ∀ m, m ≠ l' → t'.get? m = t.get? m := by
      intro m hm
      rcases hreplaced.frame m hm with hsame | ⟨htemporary, hnone⟩
      · exact hsame
      · rw [hnone, hclean m htemporary]
    rw [heq, hplace]
    refine ⟨⟨hreplaced.folders, ?_⟩, hreplaced.plain, ?_⟩
    · intro m
      by_cases hm : m = l'
      · rw [hm, hreplaced.holds, hl]
        exact Iff.rfl
      · rw [hframe m hm]
    · intro m hm
      exact hframe m (by simpa using hm)

theorem rewritten_applyRules (path : Path) (rules : List Rule) :
    Rewritten t (applyRules t path rules .apply).2 (t.place? path).toList := by
  rw [applyRules]
  split
  · exact Rewritten.refl ht _
  · split
    · exact Rewritten.refl ht _
    · next before hread =>
        have hbefore : t.readText path = .ok before := by
          rw [FileTree.read] at hread
          cases hcontent : t.readText path with
          | ok content =>
              rw [hcontent] at hread
              cases hread
              rfl
          | error e =>
              rw [hcontent] at hread
              cases hread
        simp only [WriteMode.writes, if_true]
        split
        · exact Rewritten.refl ht _
        · have hwrite := rewritten_writeAtomic ht hclean path before
            (String.ofList (substituteText rules before.toList).content) ("write " ++ path.text)
            hbefore
          split <;>
            · next heq =>
                rw [heq] at hwrite
                exact hwrite

/-- A file of a batch is rewritten in place. -/
theorem rewritten_substituteFile (rules : List Rule) (b : BatchReport) (path : Path) :
    Rewritten t (substituteFile rules .apply (b, t) path).2 (t.place? path).toList := by
  rw [substituteFile]
  simp only
  split
  · exact Rewritten.refl ht _
  · exact rewritten_applyRules ht hclean path _

end

theorem rewritten_foldl (rules : List Rule) (files : List Path) (b : BatchReport) (t : FileTree)
    (ht : t.IsPlain) (hclean : t.HasNoTemporaries) :
    Rewritten t (files.foldl (substituteFile rules .apply) (b, t)).2
      (files.filterMap t.place?) := by
  induction files generalizing b t with
  | nil => exact Rewritten.refl ht _
  | cons path files ih =>
      have hfirst := rewritten_substituteFile ht hclean rules b path
      have hrest := ih (substituteFile rules .apply (b, t) path).1 _ hfirst.plain
        (hfirst.noTemporaries hclean)
      -- Paths lead where they led, since the folders are the same.
      have hplaces : (substituteFile rules .apply (b, t) path).2.place? = t.place? :=
        funext (place?_of_sameFolders ht hfirst.plain hfirst.toSameFolders)
      rw [hplaces] at hrest
      rw [List.foldl_cons]
      refine (hfirst.trans hrest).mono fun l hl => ?_
      rw [List.filterMap_cons]
      cases hplace : t.place? path with
      | none =>
          rw [hplace] at hl
          exact hl
      | some l' =>
          rw [hplace] at hl
          exact hl

/-- Where the files of an expression are. -/
def selectedPlaces (t : FileTree) (input : Path) (expression : String) : List Location :=
  match expandExpression t input expression with
  | .ok files => files.filterMap t.place?
  | .error _ => []

/-- Expressions that rewrite every file at most once: none of them migrates
    anything, and no file is selected twice. Nor is there a temporary file for a
    write to run into. -/
structure RewritesApart (t : FileTree) (input : Path) (expressions : List String) : Prop where
  noTemporaries : t.HasNoTemporaries
  substitutes : ∀ x ∈ expressions, isReferenceExpression x = false
  nodup : (expressions.flatMap (selectedPlaces t input)).Nodup

section

variable (m : RenameMap) (input : Path)

theorem runFiles_rewritten (expression : String) (hkind : isReferenceExpression expression = false)
    (files : List Path) (t : FileTree) (ht : t.IsPlain) (hclean : t.HasNoTemporaries) :
    Rewritten t (runFiles m expression files .apply t).2 (files.filterMap t.place?) := by
  rw [runFiles, hkind, if_neg Bool.false_ne_true, substitutionBatch]
  cases m.rules expression with
  | error cause => exact Rewritten.refl ht _
  | ok rules => exact rewritten_foldl rules files _ t ht hclean

theorem runExpression_rewritten (expression : String)
    (hkind : isReferenceExpression expression = false) (t : FileTree) (ht : t.IsPlain)
    (hclean : t.HasNoTemporaries) :
    Rewritten t (runExpression m input .apply expression t).2
      (selectedPlaces t input expression) := by
  rw [runExpression_eq, selectedPlaces]
  cases expandExpression t input expression with
  | error cause => exact Rewritten.refl ht _
  | ok files => exact runFiles_rewritten m expression hkind files t ht hclean

/-- Substitutions rewrite the files that they select at the start. -/
theorem runExpressions_rewritten (expressions : List String)
    (hkind : ∀ x ∈ expressions, isReferenceExpression x = false) (t : FileTree) (ht : t.IsPlain)
    (hclean : t.HasNoTemporaries) :
    Rewritten t (runExpressions m input .apply expressions t).2
      (expressions.flatMap (selectedPlaces t input)) := by
  induction expressions generalizing t with
  | nil => exact Rewritten.refl ht _
  | cons expression expressions ih =>
      have hfirst := runExpression_rewritten m input expression (hkind _ List.mem_cons_self) t ht
        hclean
      rw [runExpressions]
      split
      · next cause t' heq =>
          rw [heq] at hfirst
          exact hfirst.mono fun l hl => List.mem_append_left _ hl
      · next batch t' heq =>
          rw [heq] at hfirst
          -- The expressions behind it still select what they select at the start.
          have hplaces : selectedPlaces t' input = selectedPlaces t input := by
            funext x
            rw [selectedPlaces, selectedPlaces,
              expandExpression_sameShape ht hfirst.plain hfirst.toSameShape,
              funext (place?_of_sameFolders ht hfirst.plain hfirst.toSameFolders)]
          have hrest := ih (fun x hx => hkind x (List.mem_cons_of_mem _ hx)) t' hfirst.plain
            (hfirst.noTemporaries hclean)
          rw [hplaces] at hrest
          split <;>
            · next heq' =>
                rw [heq'] at hrest
                exact hfirst.trans hrest

end

end SchemaRename
