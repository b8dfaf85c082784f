import SchemaRename.Proofs.FileTree.Removing

/-!
# What Removals Take Away

Removals in trees with links.

A tree from which entries were taken has no new walks: whatever is found in it
was found at the same location before. And what was found before is found
again or missed, since a walk that does not come to its end has come to an
entry that is gone.

That settles what a removal does. An emptied folder is removed by walking to
it a second time, and that walk can have gone through the folder itself. But
then it misses something, which is no failure. So a removal takes away
what its path names with all that is below, or part of that, or it fails and
takes nothing.

## Main definitions

* `FileTree.Misses`: A walk that misses something.
* `FileTree.LostOnly`: A tree that has lost nothing but what some paths name.

## Theorems

* `WalksTo.of_thinned`, `walk_thinned`: Walks in a tree from which entries
  were taken.
* `delete_lostOnly`: What a removal takes away.
* `LostOnly.append`: What several removals take away.
-/

namespace SchemaRename.FileTree

section

variable {t : FileTree} {follow : Bool} {links : Nat} {here : Location}

/-- Whatever is found in a tree from which entries were taken was found at the
    same location before. -/
theorem WalksTo.of_thinned {t' : FileTree} (hthin : Thinned t t') {names : List String}
    {l : Location} (h : WalksTo t' follow links here names (.found l)) :
    WalksTo t follow links here names (.found l) := by
  generalize hplace : Place.found l = place at h ⊢
  induction h with
  | stop links here => exact .stop links here
  | stay hhere h ih => exact .stay (hthin.get?_eq_some hhere) (ih hplace)
  | up hhere h ih => exact .up (hthin.get?_eq_some hhere) (ih hplace)
  | down hhere hname hthere h ih =>
      exact .down (hthin.get?_eq_some hhere) hname (hthin.get?_eq_some hthere) (ih hplace)
  | file hhere hname hthere =>
      exact .file (hthin.get?_eq_some hhere) hname (hthin.get?_eq_some hthere)
  | missing => cases hplace
  | link hfollow hhere hname hthere =>
      exact .link hfollow (hthin.get?_eq_some hhere) hname (hthin.get?_eq_some hthere)
  | jump hfollow hhere hname hthere h ih =>
      exact .jump hfollow (hthin.get?_eq_some hhere) hname (hthin.get?_eq_some hthere) (ih hplace)

/-- A walk that ends where something is missing, in a folder or on the way. -/
def Misses (outcome : Except OsError Place) : Prop :=
  outcome = .error .notFound ∨ ∃ folder n, outcome = .ok (.missing folder n)

section

variable {t' : FileTree} (hthin : Thinned t t') (hhere : t.get? here = some .folder)
include hthin hhere

/-- A folder that a walk goes on from is still there, or the walk misses it. -/
theorem Thinned.folder_or_misses (name : String) (rest : List String) :
    t'.get? here = some .folder ∨ Misses (t'.walk follow links here (name :: rest)) := by
  rcases hthin here with hsame | hgone
  · exact Or.inl (hsame.trans hhere)
  · refine Or.inr (Or.inl ?_)
    rw [walk_cons_of_ne t' _ _ _ _ _ (by rw [hgone]; simp), if_pos hgone]

/-- A name that a walk looks up leads where it led, or the walk misses it. -/
theorem Thinned.same_or_misses {name : String} (hname : IsLookedUp name) (rest : List String) :
    (t'.get? here = some .folder ∧ t'.get? (here ++ [name]) = t.get? (here ++ [name])) ∨
      Misses (t'.walk follow links here (name :: rest)) := by
  rcases hthin.folder_or_misses hhere name rest with hhere' | hmiss
  · rcases hthin (here ++ [name]) with hsame | hgone
    · exact Or.inl ⟨hhere', hsame⟩
    · right
      rw [walk_lookedUp hhere' hname, hgone]
      by_cases hrest : rest = []
      · exact Or.inr ⟨here, name, by simp [hrest]⟩
      · exact Or.inl (by simp [hrest])
  · exact Or.inr hmiss

end

/-- What was found before entries were taken is found again or missing. -/
theorem walk_thinned {t' : FileTree} (hthin : Thinned t t') {names : List String} {l : Location}
    (h : WalksTo t follow links here names (.found l)) :
    t'.walk follow links here names = .ok (.found l) ∨
      Misses (t'.walk follow links here names) := by
  generalize hplace : Place.found l = place at h
  -- Each step finds what it found before, or something is missing and the walk ends there.
  induction h with
  | stop links here =>
      rw [walk_nil]
      exact Or.inl rfl
  | @stay links here rest place hhere h ih =>
      rcases hthin.folder_or_misses hhere "." rest with hhere' | hmiss
      · rw [walk_dot hhere']
        exact ih hplace
      · exact Or.inr hmiss
  | @up links here rest place hhere h ih =>
      rcases hthin.folder_or_misses hhere ".." rest with hhere' | hmiss
      · rw [walk_dots hhere']
        exact ih hplace
      · exact Or.inr hmiss
  | @down links here name rest place hhere hname hthere h ih =>
      rcases hthin.same_or_misses hhere hname rest with ⟨hhere', hsame⟩ | hmiss
      · rw [walk_lookedUp hhere' hname, hsame, hthere]
        exact ih hplace
      · exact Or.inr hmiss
  | @file links here name content hhere hname hthere =>
      rcases hthin.same_or_misses hhere hname [] with ⟨hhere', hsame⟩ | hmiss
      · rw [walk_lookedUp hhere' hname, hsame, hthere]
        exact Or.inl rfl
      · exact Or.inr hmiss
  | missing => cases hplace
  | @link links here name target hfollow hhere hname hthere =>
      rcases hthin.same_or_misses hhere hname [] with ⟨hhere', hsame⟩ | hmiss
      · rw [walk_lookedUp hhere' hname, hsame, hthere]
        exact Or.inl (by simp [hfollow])
      · exact Or.inr hmiss
  | @jump links here name rest place target hfollow hhere hname hthere h ih =>
      rcases hthin.same_or_misses hhere hname rest with ⟨hhere', hsame⟩ | hmiss
      · have hfollowed : ¬ (rest = [] ∧ follow = false) := by
          rintro ⟨hrest, hnot⟩
          rw [hfollow hrest] at hnot
          cases hnot
        rw [walk_lookedUp hhere' hname, hsame, hthere]
        simp only [if_neg hfollowed]
        exact ih hplace
      · exact Or.inr hmiss

/-- A tree that has lost nothing but what some paths named, and what was below
    that. -/
def LostOnly (t t' : FileTree) (paths : List Path) : Prop :=
  ∀ l, t'.get? l = t.get? l ∨
    (t'.get? l = none ∧ ∃ p ∈ paths, ∃ k, t.locate false p = .ok k ∧ k <+: l)

end

section

variable (t : FileTree) (p : Path) (front : List String) (s : String)
  (hsteps : p.steps = front ++ [s]) (hs : IsFileName s) (hslash : p.endsInSlash = false)
include hsteps hs hslash

/-- An emptied folder is removed by the same path, unless the path leads
    nowhere by then. -/
theorem removeEmptyFolder_eraseBelow (l : Location) (hlocate : t.locate false p = .ok l)
    (hl : t.get? l = some .folder) :
    (t.eraseBelow l).removeEmptyFolder p = .ok ((t.eraseBelow l).erase l) ∨
      (t.eraseBelow l).removeEmptyFolder p = .error .notFound := by
  obtain ⟨hne, hsize, hwalks⟩ := (locate_eq_ok_iff_walksTo false p l).mp hlocate
  rw [Path.stepsToFolder, hslash, if_neg Bool.false_ne_true, List.append_nil] at hwalks
  have hresolve : (t.eraseBelow l).resolveSteps false p p.steps =
      (t.eraseBelow l).walk false maxLinks (t.origin p) p.steps := by
    rw [resolveSteps, if_neg (by simpa using hne), if_neg (Nat.not_lt.mpr hsize)]
    rfl
  have hstill : (t.eraseBelow l).get? l = some .folder := by
    rw [get?_eraseBelow, if_neg (fun h => h.2 rfl), hl]
  -- The folder is still there, but the way to it may have led through what was below it.
  have hwalk := walk_thinned (thinned_eraseBelow t l) hwalks
  rw [← hresolve] at hwalk
  rw [removeEmptyFolder, hsteps, List.getLast?_concat, ← hsteps]
  split
  · next h => cases h
  · next h => exact absurd (Option.some.inj h) hs.ne_dot
  · next h => exact absurd (Option.some.inj h) hs.ne_dots
  · rcases hwalk with hfound | hgone | ⟨folder, n, hmissing⟩
    · left
      simp [hfound, bind, Except.bind, hstill, pure, Except.pure]
    · right
      simp [hgone, bind, Except.bind]
    · right
      simp [hmissing, bind, Except.bind, throw, throwThe, MonadExceptOf.throw]

/-- A removal takes away what the path names and what is below that, or
    nothing. -/
theorem delete_lostOnly (operation : String) :
    (∃ t', t.delete p operation = (.ok (), t') ∧ LostOnly t t' [p]) ∨
      ∃ e, t.delete p operation = (.error e, t) := by
  have hlost : ∀ l, t.locate false p = .ok l → ∀ t', Thinned t t' →
      (∀ m, ¬ l <+: m → t'.get? m = t.get? m) → LostOnly t t' [p] := by
    intro l hlocate t' hthin hframe m
    by_cases hm : l <+: m
    · exact (hthin m).imp id fun hnone => ⟨hnone, p, List.mem_singleton_self p, l, hlocate, hm⟩
    · exact Or.inl (hframe m hm)
  have herase : ∀ (u : FileTree) (l m : Location), ¬ l <+: m → (u.erase l).get? m = u.get? m := by
    intro u l m hm
    refine get?_erase_of_ne u ?_
    rintro rfl
    exact hm (List.prefix_refl m)
  have hbelow : ∀ l m : Location, ¬ l <+: m → (t.eraseBelow l).get? m = t.get? m := by
    intro l m hm
    rw [get?_eraseBelow, if_neg fun h => hm h.1]
  rw [delete, remove]
  cases hfolder : t.isFolder p with
  | true =>
      rw [if_pos rfl, removeFolder]
      cases hlocate : t.locate false p with
      | error e => exact Or.inr ⟨e.toError operation, rfl⟩
      | ok l =>
          left
          simp only
          split
          · next hl =>
              rcases removeEmptyFolder_eraseBelow t p front s hsteps hs hslash l hlocate hl with
                hremoved | hgone
              · rw [hremoved]
                refine ⟨_, rfl, hlost l hlocate _
                  ((thinned_eraseBelow t l).trans (thinned_erase _ l)) fun m hm => ?_⟩
                rw [herase _ l m hm, hbelow l m hm]
              · -- Nothing was found the second time, and the folder stays, with nothing in it.
                rw [hgone]
                exact ⟨_, rfl, hlost l hlocate _ (thinned_eraseBelow t l) (hbelow l)⟩
          · exact ⟨_, rfl, hlost l hlocate _ (thinned_erase t l) (herase t l)⟩
  | false =>
      rw [if_neg Bool.false_ne_true]
      cases hremove : t.removeFile p with
      | error e => exact Or.inr ⟨e.toError operation, rfl⟩
      | ok t' =>
          obtain ⟨l, hlocate, rfl⟩ := exists_of_removeFile t p t' hremove
          exact Or.inl ⟨_, rfl, hlost l hlocate _ (thinned_erase t l) (herase t l)⟩

end

theorem shrinks_workingFolder : Shrinks fun t t' => t'.workingFolder = t.workingFolder :=
  ⟨fun _ => rfl, fun h h' => h'.trans h, fun _ _ => rfl, fun _ _ => rfl⟩

section

variable {t t' : FileTree}

theorem LostOnly.refl (t : FileTree) (paths : List Path) : LostOnly t t paths :=
  fun _ => Or.inl rfl

theorem LostOnly.thinned {paths : List Path} (h : LostOnly t t' paths) : Thinned t t' :=
  fun l => (h l).imp id And.left

theorem LostOnly.mono {paths more : List Path} (h : LostOnly t t' paths) (hsub : paths ⊆ more) :
    LostOnly t t' more :=
  fun l => (h l).imp id fun ⟨hnone, p, hp, hnamed⟩ => ⟨hnone, p, hsub hp, hnamed⟩

/-- A path names what it named before entries were taken. -/
theorem locate_of_thinned (hthin : Thinned t t') (hwork : t'.workingFolder = t.workingFolder)
    (follow : Bool) (p : Path) (l : Location) (h : t'.locate follow p = .ok l) :
    t.locate follow p = .ok l := by
  obtain ⟨hne, hsize, hwalks⟩ := (locate_eq_ok_iff_walksTo follow p l).mp h
  have horigin : t'.origin p = t.origin p := by rw [origin, origin, hwork]
  rw [horigin] at hwalks
  exact (locate_eq_ok_iff_walksTo follow p l).mpr ⟨hne, hsize, hwalks.of_thinned hthin⟩

/-- One removal after others. -/
theorem LostOnly.append {t'' : FileTree} {paths more : List Path} (h : LostOnly t t' paths)
    (hwork : t'.workingFolder = t.workingFolder) (h' : LostOnly t' t'' more) :
    LostOnly t t'' (paths ++ more) := by
  intro l
  rcases h' l with hsame | ⟨hnone, p, hp, k, hlocate, hk⟩
  · rw [hsame]
    refine (h l).imp id fun ⟨hgone, p, hp, hnamed⟩ => ⟨hgone, p, ?_, hnamed⟩
    exact List.mem_append_left more hp
  · -- What the later path names, it named before the earlier removals.
    exact Or.inr ⟨hnone, p, List.mem_append_right paths hp, k,
      locate_of_thinned h.thinned hwork false p k hlocate, hk⟩

end

end SchemaRename.FileTree
