import Mathlib.Data.List.Nodup
import SchemaRename.Proofs.FileTree.PathSteps

/-!
# Trees of Plain Files and Folders

What the entries of a file system have in common.

A tree is a list of entries, and not every list is a file system: a file has
to stand in a folder, under a name that a path can say, and only once. Plain
trees have no links in addition, so the place of an entry is its name and
nothing leads anywhere else.

A change is judged by what it does to the view `get?`. Two kinds occur: a
location goes with everything below it, or files come, go and change while
the folders stay. Both keep a tree plain.

## Main definitions

* `FileTree.IsOrderly`: Trees as a file system keeps them.
* `FileTree.IsPlain`: Such trees without links.
* `FileTree.isPlain`: The same, checked entry by entry.
* `FileTree.SameFolders`: Trees that differ in their files only.

## Theorems

* `isPlain_of_check`: A tree that passes the check is plain.
* `IsOrderly.folder_of_prefix`: What has something below it is a folder.
* `mem_children`, `nodup_children`, `children_eq`: The names in a folder.
* `get?_eraseBelow`: What is left when a folder is emptied.
* `IsPlain.of_cut`: A plain tree without a location and all below it.
* `IsPlain.of_files`: A plain tree with other files in its folders.
-/

namespace SchemaRename

/-- Whether a text is a name that the system takes. -/
def isEntryName (s : String) : Bool :=
  decide (IsFileName s) && decide (s.utf8ByteSize ≤ maxNameSize)

namespace FileTree

/-- A tree as a file system keeps it: every entry has a location of its own,
    under proper names, and stands in a folder. -/
structure IsOrderly (t : FileTree) : Prop where
  nodup : (t.entries.map Prod.fst).Nodup
  named : ∀ l, (t.get? l).isSome → ∀ n ∈ l, isEntryName n = true
  housed : ∀ l n, (t.get? (l ++ [n])).isSome → t.get? l = some .folder
  working : t.get? t.workingFolder = some .folder

/-- A tree of files and folders, with no links among them. -/
structure IsPlain (t : FileTree) : Prop extends IsOrderly t where
  unlinked : ∀ l target, t.get? l ≠ some (.link target)

/-- Whether an entry is a link. -/
def isLink : Entry → Bool
  | .link _ => true
  | _ => false

/-- Whether a tree is plain, checked entry by entry. -/
def isPlain (t : FileTree) : Bool :=
  decide (t.entries.map Prod.fst).Nodup &&
    (t.entries.all fun e =>
      e.1.all isEntryName && (t.get? e.1.dropLast == some .folder) && !isLink e.2) &&
    (t.get? t.workingFolder == some .folder)

theorem mem_of_lookup {entries : List (Location × Entry)} {l : Location} {e : Entry}
    (h : entries.lookup l = some e) : (l, e) ∈ entries := by
  induction entries with
  | nil => simp at h
  | cons x rest ih =>
      obtain ⟨k, v⟩ := x
      rw [List.lookup_cons] at h
      cases hk : l == k with
      | true =>
          rw [hk] at h
          simp only [Option.some.injEq] at h
          rw [beq_iff_eq] at hk
          rw [hk, h]
          exact List.mem_cons_self
      | false =>
          rw [hk] at h
          exact List.mem_cons_of_mem _ (ih h)

theorem get?_of_ne_nil (t : FileTree) {l : Location} (hl : l ≠ []) :
    t.get? l = t.entries.lookup l := by
  rw [get?, if_neg (by simpa using hl)]

theorem ne_nil_of_get?_ne (t : FileTree) {l : Location} (h : t.get? l ≠ some .folder) :
    l ≠ [] := by
  rintro rfl
  exact h (get?_root t)

/-- An entry other than the root is in the list of entries. -/
theorem mem_of_get? (t : FileTree) {l : Location} (hl : l ≠ []) {e : Entry}
    (h : t.get? l = some e) : (l, e) ∈ t.entries := by
  rw [get?_of_ne_nil t hl] at h
  exact mem_of_lookup h

theorem get?_isSome_of_mem (t : FileTree) {x : Location × Entry} (h : x ∈ t.entries) :
    (t.get? x.1).isSome := by
  rw [get?]
  split
  · rfl
  · rw [List.lookup_isSome_iff]
    exact ⟨x, h, by simp⟩

/-- A tree that passes the check is plain. -/
theorem isPlain_of_check (t : FileTree) (h : t.isPlain = true) : t.IsPlain := by
  simp only [isPlain, Bool.and_eq_true, List.all_eq_true, decide_eq_true_eq, beq_iff_eq,
    Bool.not_eq_true'] at h
  obtain ⟨⟨hnodup, hall⟩, hworking⟩ := h
  refine ⟨⟨hnodup, ?_, ?_, hworking⟩, ?_⟩
  · intro l hl n hn
    have hne : l ≠ [] := List.ne_nil_of_mem hn
    obtain ⟨e, he⟩ := Option.isSome_iff_exists.mp hl
    exact (hall (l, e) (mem_of_get? t hne he)).1.1 n hn
  · intro l n hl
    obtain ⟨e, he⟩ := Option.isSome_iff_exists.mp hl
    have h := (hall (l ++ [n], e) (mem_of_get? t (by simp) he)).1.2
    rwa [List.dropLast_concat] at h
  · intro l target hl
    have hne : l ≠ [] := ne_nil_of_get?_ne t (by simp [hl])
    have h := (hall _ (mem_of_get? t hne hl)).2
    simp [isLink] at h

theorem isEntryName_iff (s : String) :
    isEntryName s = true ↔ IsFileName s ∧ s.utf8ByteSize ≤ maxNameSize := by
  simp [isEntryName]

theorem isFileName_of_isEntryName {s : String} (h : isEntryName s = true) : IsFileName s :=
  ((isEntryName_iff s).mp h).1

theorem size_le_of_isEntryName {s : String} (h : isEntryName s = true) :
    s.utf8ByteSize ≤ maxNameSize :=
  ((isEntryName_iff s).mp h).2

/-- What has something below it is a folder. -/
theorem IsOrderly.folder_of_prefix {t : FileTree} (ht : t.IsOrderly) (l rest : Location)
    (hrest : rest ≠ []) (h : (t.get? (l ++ rest)).isSome) : t.get? l = some .folder := by
  induction rest generalizing l with
  | nil => exact absurd rfl hrest
  | cons n rest ih =>
      by_cases hnil : rest = []
      · subst hnil
        exact ht.housed l n h
      · have hstep := ih (l ++ [n]) hnil (by rwa [List.append_assoc])
        exact ht.housed l n (by rw [hstep]; rfl)

theorem IsOrderly.isSome_of_prefix {t : FileTree} (ht : t.IsOrderly) (l rest : Location)
    (h : (t.get? (l ++ rest)).isSome) : (t.get? l).isSome := by
  by_cases hnil : rest = []
  · rwa [hnil, List.append_nil] at h
  · rw [ht.folder_of_prefix l rest hnil h]
    rfl

theorem childName?_eq_some_iff (l m : Location) (n : String) :
    childName? l m = some n ↔ m = l ++ [n] := by
  induction l generalizing m with
  | nil =>
      cases m with
      | nil => simp [childName?]
      | cons a m =>
          cases m with
          | nil => simp [childName?]
          | cons b m => simp [childName?]
  | cons a l ih =>
      cases m with
      | nil => simp [childName?]
      | cons b m =>
          by_cases hab : a = b
          · subst hab
            simp [childName?, ih]
          · simp [childName?, hab, Ne.symm hab]

/-- The names in a folder. -/
theorem mem_children (t : FileTree) (l : Location) (n : String) :
    n ∈ t.children l ↔ (t.get? (l ++ [n])).isSome := by
  rw [children, (inOrder_perm _ _).mem_iff, List.mem_filterMap]
  constructor
  · rintro ⟨x, hx, hn⟩
    rw [childName?_eq_some_iff] at hn
    rw [← hn]
    exact get?_isSome_of_mem t hx
  · intro h
    obtain ⟨e, he⟩ := Option.isSome_iff_exists.mp h
    exact ⟨_, mem_of_get? t (by simp) he, (childName?_eq_some_iff l _ n).mpr rfl⟩

theorem nodup_children (t : FileTree) (ht : (t.entries.map Prod.fst).Nodup) (l : Location) :
    (t.children l).Nodup := by
  rw [children, (inOrder_perm _ _).nodup_iff]
  have hmap : t.entries.filterMap (fun e => childName? l e.1) =
      (t.entries.map Prod.fst).filterMap (childName? l) := by
    rw [List.filterMap_map]
    rfl
  rw [hmap]
  apply List.Nodup.filterMap _ ht
  intro a b n ha hb
  rw [Option.mem_def, childName?_eq_some_iff] at ha hb
  rw [ha, hb]

theorem pairwise_insertInOrder (a : String) (names : List String)
    (h : names.Pairwise (· ≤ ·)) : (insertInOrder (· ≤ ·) a names).Pairwise (· ≤ ·) := by
  induction names with
  | nil => exact List.pairwise_singleton _ a
  | cons b names ih =>
      obtain ⟨hhead, htail⟩ := List.pairwise_cons.mp h
      rw [insertInOrder]
      split
      · next hab =>
          have hab : a ≤ b := of_decide_eq_true hab
          refine List.pairwise_cons.mpr ⟨?_, h⟩
          intro c hc
          rcases List.mem_cons.mp hc with rfl | hc
          · exact hab
          · exact String.le_trans hab (hhead c hc)
      · next hab =>
          have hba : b ≤ a := (String.le_total a b).resolve_left fun hle => hab (decide_eq_true hle)
          refine List.pairwise_cons.mpr ⟨?_, ih htail⟩
          intro c hc
          rcases List.mem_cons.mp ((insertInOrder_perm _ a names).mem_iff.mp hc) with rfl | hc
          · exact hba
          · exact hhead c hc

/-- Folders with the same names list them in the same order. -/
theorem children_eq (t t' : FileTree) (ht : (t.entries.map Prod.fst).Nodup)
    (ht' : (t'.entries.map Prod.fst).Nodup) (l l' : Location)
    (h : ∀ n, (t'.get? (l' ++ [n])).isSome ↔ (t.get? (l ++ [n])).isSome) :
    t'.children l' = t.children l := by
  have hsorted : ∀ names : List String, (inOrder (· ≤ ·) names).Pairwise (· ≤ ·) := by
    intro names
    induction names with
    | nil => exact List.Pairwise.nil
    | cons name names ih => exact pairwise_insertInOrder name _ ih
  have hperm : (t'.children l').Perm (t.children l) := by
    rw [List.perm_ext_iff_of_nodup (nodup_children t' ht' l') (nodup_children t ht l)]
    intro n
    rw [mem_children, mem_children]
    exact h n
  exact hperm.eq_of_pairwise (fun _ _ _ _ => String.le_antisymm) (hsorted _) (hsorted _)

theorem lookup_filter (keep : Location → Bool) (entries : List (Location × Entry))
    (m : Location) :
    (entries.filter fun e => keep e.1).lookup m = if keep m then entries.lookup m else none := by
  induction entries with
  | nil => simp
  | cons x rest ih =>
      obtain ⟨k, v⟩ := x
      cases hmk : m == k with
      | true =>
          have heq : m = k := beq_iff_eq.mp hmk
          subst heq
          cases hk : keep m with
          | true => simp [hk]
          | false => simp [hk, ih]
      | false =>
          cases hk : keep k with
          | true => simp [hk, List.lookup_cons, hmk, ih]
          | false => simp [hk, List.lookup_cons, hmk, ih]

/-- What is left when a location is emptied. -/
theorem get?_eraseBelow (t : FileTree) (l m : Location) :
    (t.eraseBelow l).get? m = if l <+: m ∧ m ≠ l then none else t.get? m := by
  by_cases hm : m = []
  · subst hm
    rw [get?_root, get?_root, if_neg]
    rintro ⟨hfront, hne⟩
    exact hne (List.prefix_nil.mp hfront).symm
  · rw [get?_of_ne_nil _ hm, get?_of_ne_nil _ hm, eraseBelow]
    simp only
    rw [lookup_filter (fun k => k == l || !l.isPrefixOf k)]
    by_cases hgone : l <+: m ∧ m ≠ l
    · rw [if_pos hgone, if_neg]
      simpa [and_comm] using hgone
    · rw [if_neg hgone, if_pos]
      simpa [← List.isPrefixOf_iff_prefix, imp_iff_not_or, or_comm] using hgone

theorem nodup_insert (t : FileTree) (l : Location) (e : Entry)
    (h : (t.entries.map Prod.fst).Nodup) : ((t.insert l e).entries.map Prod.fst).Nodup := by
  rw [insert]
  split
  · have hkeys : (t.entries.map fun old => if old.1 == l then (l, e) else old).map Prod.fst =
        t.entries.map Prod.fst := by
      rw [List.map_map]
      apply List.map_congr_left
      intro old _
      by_cases hold : old.1 = l
      · simp [hold]
      · simp [hold]
    simp only
    rw [hkeys]
    exact h
  · next hnone =>
      simp only
      rw [List.map_append, List.nodup_append]
      refine ⟨h, by simp, ?_⟩
      intro a ha b hb hab
      simp only [List.map_cons, List.map_nil, List.mem_singleton] at hb
      obtain ⟨x, hx, rfl⟩ := List.mem_map.mp ha
      apply hnone
      rw [List.lookup_isSome_iff]
      exact ⟨x, hx, by simp [hab, hb]⟩

theorem nodup_filter (t : FileTree) (keep : Location × Entry → Bool)
    (h : (t.entries.map Prod.fst).Nodup) : ((t.entries.filter keep).map Prod.fst).Nodup :=
  h.sublist (List.filter_sublist.map _)

@[simp] theorem insert_workingFolder (t : FileTree) (l : Location) (e : Entry) :
    (t.insert l e).workingFolder = t.workingFolder := by
  rw [insert]
  split <;> rfl

/-- A plain tree without some entries and all that is below them, as long as
    the working folder is not among them. -/
theorem IsPlain.of_cut {t t' : FileTree} (ht : t.IsPlain) (gone : Location → Prop)
    (hnodup : (t'.entries.map Prod.fst).Nodup) (hwork : t'.workingFolder = t.workingFolder)
    (hbelow : ∀ m n, gone m → gone (m ++ [n])) (hkept : ¬ gone t.workingFolder)
    (hgone : ∀ m, gone m → t'.get? m = none) (hget : ∀ m, ¬ gone m → t'.get? m = t.get? m) :
    t'.IsPlain := by
  have hsame : ∀ m, (t'.get? m).isSome → t'.get? m = t.get? m ∧ ¬ gone m := by
    intro m hm
    have hnot : ¬ gone m := fun h => by simp [hgone m h] at hm
    exact ⟨hget m hnot, hnot⟩
  refine ⟨⟨hnodup, ?_, ?_, ?_⟩, ?_⟩
  · intro m hm
    exact ht.named m (by rwa [← (hsame m hm).1])
  · intro m n hm
    obtain ⟨heq, hnot⟩ := hsame (m ++ [n]) hm
    rw [hget m fun h => hnot (hbelow m n h)]
    exact ht.housed m n (by rwa [← heq])
  · rw [hwork, hget _ hkept]
    exact ht.working
  · intro m target hm
    have hsome : (t'.get? m).isSome := by rw [hm]; rfl
    rw [(hsame m hsome).1] at hm
    exact ht.unlinked m target hm

/-- Trees that differ in their files only. -/
structure SameFolders (t t' : FileTree) : Prop where
  working : t'.workingFolder = t.workingFolder
  folder_iff : ∀ m, t'.get? m = some .folder ↔ t.get? m = some .folder

theorem SameFolders.refl (t : FileTree) : SameFolders t t :=
  ⟨rfl, fun _ => Iff.rfl⟩

theorem SameFolders.symm {t t' : FileTree} (h : SameFolders t t') : SameFolders t' t :=
  ⟨h.working.symm, fun m => (h.folder_iff m).symm⟩

theorem SameFolders.trans {t t' t'' : FileTree} (h : SameFolders t t') (h' : SameFolders t' t'') :
    SameFolders t t'' :=
  ⟨h'.working.trans h.working, fun m => (h'.folder_iff m).trans (h.folder_iff m)⟩

/-- A plain tree with other files in its folders. A file that is new stands in
    a folder under a proper name. -/
theorem IsPlain.of_files {t t' : FileTree} (ht : t.IsPlain) (hsame : SameFolders t t')
    (hnodup : (t'.entries.map Prod.fst).Nodup)
    (hentry : ∀ m, t'.get? m = t.get? m ∨ t'.get? m = none ∨
      ((∃ content, t'.get? m = some (.file content)) ∧
        ∃ folder n, m = folder ++ [n] ∧ t.get? folder = some .folder ∧ isEntryName n = true)) :
    t'.IsPlain := by
  refine ⟨⟨hnodup, ?_, ?_, ?_⟩, ?_⟩
  · intro m hm
    rcases hentry m with heq | hnone | ⟨-, folder, n, rfl, hfolder, hn⟩
    · exact ht.named m (by rwa [← heq])
    · rw [hnone] at hm
      simp at hm
    · intro k hk
      rcases List.mem_append.mp hk with hk | hk
      · exact ht.named folder (by rw [hfolder]; rfl) k hk
      · rw [List.mem_singleton.mp hk]
        exact hn
  · intro m k hm
    rw [hsame.folder_iff]
    rcases hentry (m ++ [k]) with heq | hnone | ⟨-, folder, n, hmk, hfolder, -⟩
    · exact ht.housed m k (by rwa [← heq])
    · rw [hnone] at hm
      simp at hm
    · rw [(List.append_inj' hmk rfl).1]
      exact hfolder
  · rw [hsame.working, hsame.folder_iff]
    exact ht.working
  · intro m target hm
    rcases hentry m with heq | hnone | ⟨⟨content, hfile⟩, -⟩
    · exact ht.unlinked m target (by rw [← heq, hm])
    · rw [hnone] at hm
      simp at hm
    · rw [hfile] at hm
      simp at hm

end FileTree

end SchemaRename
