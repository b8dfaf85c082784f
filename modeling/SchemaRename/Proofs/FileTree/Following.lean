import SchemaRename.FileTree.Resolve

/-!
# Walking in Any Tree

Where a walk ends when it may follow links.

A walk that succeeds is a derivation: one rule for each kind of first name,
and one more for a link, whose target is walked in place of the link and uses
up one of the links that may be followed. What can be said of walks in any
tree is by induction on such derivations.

A walk in two parts reaches a folder in between. So all that is on the way to
a folder are folders, and a dot behind the way makes no difference, which is
what a slash at the end of a path comes to. And what a walk reports as missing
is missing, whichever links it has followed.

## Main definitions

* `FileTree.WalksTo`: A walk that succeeds.

## Theorems

* `walk_dot`, `walk_dots`, `walk_lookedUp`: One step of a walk.
* `walk_eq_ok_iff`: Walks that succeed are derivations.
* `WalksTo.exists_mid`, `WalksTo.dot`: A walk in two parts.
* `get?_of_walk_missing`: What is reported as missing.
-/

namespace SchemaRename.FileTree

theorem walk_nil (t : FileTree) (follow : Bool) (links : Nat) (here : Location) :
    t.walk follow links here [] = .ok (.found here) := by
  cases links <;> rfl

/-- No walk goes on from what is no folder. -/
theorem walk_cons_of_ne (t : FileTree) (follow : Bool) (links : Nat) (here : Location)
    (name : String) (rest : List String)
    (hhere : t.get? here ≠ some .folder) :
    t.walk follow links here (name :: rest) =
      .error (if t.get? here = none then .notFound else .notFolder) := by
  cases links <;>
    · rw [walk, walkTo]
      cases hentry : t.get? here with
      | none => rfl
      | some entry =>
          cases entry with
          | folder => exact absurd hentry hhere
          | file content => rfl
          | link target => rfl

/-- A name that is looked up in a folder. -/
structure IsLookedUp (name : String) : Prop where
  ne_dot : name ≠ "."
  ne_dots : name ≠ ".."
  size : name.utf8ByteSize ≤ maxNameSize

/-- The folder that the target of a link in a folder starts from. -/
def linkStart (here : Location) (target : String) : Location :=
  if (Path.mk target).isAbsolute then [] else here

/-- A walk that succeeds: from a folder along some names to a place, with at
    most the given number of links on the way. -/
inductive WalksTo (t : FileTree) (follow : Bool) :
    Nat → Location → List String → Place → Prop
  | stop (links : Nat) (here : Location) : WalksTo t follow links here [] (.found here)
  | stay {links : Nat} {here : Location} {rest : List String} {place : Place}
      (hhere : t.get? here = some .folder) (h : WalksTo t follow links here rest place) :
      WalksTo t follow links here ("." :: rest) place
  | up {links : Nat} {here : Location} {rest : List String} {place : Place}
      (hhere : t.get? here = some .folder) (h : WalksTo t follow links here.dropLast rest place) :
      WalksTo t follow links here (".." :: rest) place
  | down {links : Nat} {here : Location} {name : String} {rest : List String} {place : Place}
      (hhere : t.get? here = some .folder) (hname : IsLookedUp name)
      (hthere : t.get? (here ++ [name]) = some .folder)
      (h : WalksTo t follow links (here ++ [name]) rest place) :
      WalksTo t follow links here (name :: rest) place
  | file {links : Nat} {here : Location} {name : String} {content : Content}
      (hhere : t.get? here = some .folder) (hname : IsLookedUp name)
      (hthere : t.get? (here ++ [name]) = some (.file content)) :
      WalksTo t follow links here [name] (.found (here ++ [name]))
  | missing {links : Nat} {here : Location} {name : String}
      (hhere : t.get? here = some .folder) (hname : IsLookedUp name)
      (hthere : t.get? (here ++ [name]) = none) :
      WalksTo t follow links here [name] (.missing here name)
  /-- A link at the end that is not followed. -/
  | link {links : Nat} {here : Location} {name : String} {target : String}
      (hfollow : follow = false)
      (hhere : t.get? here = some .folder) (hname : IsLookedUp name)
      (hthere : t.get? (here ++ [name]) = some (.link target)) :
      WalksTo t follow links here [name] (.found (here ++ [name]))
  | jump {links : Nat} {here : Location} {name : String} {rest : List String} {place : Place}
      {target : String} (hfollow : rest = [] → follow = true)
      (hhere : t.get? here = some .folder) (hname : IsLookedUp name)
      (hthere : t.get? (here ++ [name]) = some (.link target))
      (h : WalksTo t follow links (linkStart here target)
        ((Path.mk target).stepsToFolder ++ rest) place) :
      WalksTo t follow (links + 1) here (name :: rest) place

section

variable {t : FileTree} {follow : Bool}

/-- What is behind a link, for a walk that may follow some links. -/
def walkBehind (t : FileTree) (follow : Bool) :
    Nat → Location → List String → Except OsError Place
  | 0, _, _ => .error .tooManyLinks
  | links + 1, start, names => t.walk follow links start names

variable {links : Nat} {here : Location}

section

variable (hhere : t.get? here = some .folder)
include hhere

theorem walk_dot (rest : List String) :
    t.walk follow links here ("." :: rest) = t.walk follow links here rest := by
  cases links <;>
    · rw [walk, walkTo]
      simp [hhere]

theorem walk_dots (rest : List String) :
    t.walk follow links here (".." :: rest) = t.walk follow links here.dropLast rest := by
  cases links <;>
    · rw [walk, walkTo]
      simp [hhere]

theorem walk_tooLong {name : String} (hdot : name ≠ ".") (hdots : name ≠ "..")
    (hsize : maxNameSize < name.utf8ByteSize) (rest : List String) :
    t.walk follow links here (name :: rest) = .error .nameTooLong := by
  cases links <;>
    · rw [walk, walkTo]
      simp [hhere, hdot, hdots, hsize]

/-- A walk from a folder looks up its first name there. -/
theorem walk_lookedUp {name : String} (hname : IsLookedUp name) (rest : List String) :
    t.walk follow links here (name :: rest) =
      match t.get? (here ++ [name]) with
      | none => if rest = [] then .ok (.missing here name) else .error .notFound
      | some .folder => t.walk follow links (here ++ [name]) rest
      | some (.file _) =>
        if rest = [] then .ok (.found (here ++ [name])) else .error .notFolder
      | some (.link target) =>
        if rest = [] ∧ follow = false then .ok (.found (here ++ [name]))
        else t.walkBehind follow links (linkStart here target)
          ((Path.mk target).stepsToFolder ++ rest) := by
  cases links <;>
    · rw [walk, walkTo]
      simp only [hhere, beq_iff_eq, hname.ne_dot, hname.ne_dots, Nat.not_lt.mpr hname.size,
        if_false, List.isEmpty_iff, Bool.and_eq_true, Bool.not_eq_true']
      rfl

end

/-- A walk that succeeds is a derivation, if the walk behind each link is. -/
theorem walksTo_of_walk (hbehind : ∀ start names place,
      t.walkBehind follow links start names = .ok place →
        ∃ k, links = k + 1 ∧ WalksTo t follow k start names place)
    (here : Location) (names : List String) (place : Place)
    (h : t.walk follow links here names = .ok place) : WalksTo t follow links here names place := by
  -- Names are used up one by one until there is a link, and `hbehind` has the rest.
  induction names generalizing here with
  | nil =>
      rw [walk_nil] at h
      cases h
      exact .stop links here
  | cons name rest ih =>
      by_cases hhere : t.get? here = some .folder
      · by_cases hdot : name = "."
        · subst hdot
          rw [walk_dot hhere] at h
          exact .stay hhere (ih here h)
        by_cases hdots : name = ".."
        · subst hdots
          rw [walk_dots hhere] at h
          exact .up hhere (ih here.dropLast h)
        by_cases hsize : maxNameSize < name.utf8ByteSize
        · rw [walk_tooLong hhere hdot hdots hsize] at h
          cases h
        have hname : IsLookedUp name := ⟨hdot, hdots, Nat.not_lt.mp hsize⟩
        rw [walk_lookedUp hhere hname] at h
        split at h
        · next hthere =>
            split at h
            · next hrest =>
                cases h
                rw [hrest]
                exact .missing hhere hname hthere
            · cases h
        · next hthere => exact .down hhere hname hthere (ih (here ++ [name]) h)
        · next hthere =>
            split at h
            · next hrest =>
                cases h
                rw [hrest]
                exact .file hhere hname hthere
            · cases h
        · next hthere =>
            split at h
            · next hlast =>
                cases h
                rw [hlast.1]
                exact .link hlast.2 hhere hname hthere
            · next hlast =>
                obtain ⟨k, rfl, hwalks⟩ := hbehind _ _ _ h
                refine .jump (fun hrest => ?_) hhere hname hthere hwalks
                exact Bool.not_eq_false _ ▸ fun hfollow => hlast ⟨hrest, hfollow⟩
      · rw [walk_cons_of_ne t _ _ _ _ _ hhere] at h
        cases h

/-- Walks that succeed are derivations. -/
theorem walk_eq_ok_iff (links : Nat) (here : Location) (names : List String) (place : Place) :
    t.walk follow links here names = .ok place ↔ WalksTo t follow links here names place := by
  constructor
  · intro h
    -- Whatever is behind a link is walked with one link less.
    induction links generalizing here names place with
    | zero => exact walksTo_of_walk (fun _ _ _ hbehind => by cases hbehind) here names place h
    | succ links ih =>
        exact walksTo_of_walk
          (fun start names place hbehind => ⟨links, rfl, ih start names place hbehind⟩)
          here names place h
  · intro h
    induction h with
    | stop links here => exact walk_nil t follow links here
    | stay hhere h ih => rwa [walk_dot hhere]
    | up hhere h ih => rwa [walk_dots hhere]
    | down hhere hname hthere h ih =>
        rw [walk_lookedUp hhere hname, hthere]
        exact ih
    | file hhere hname hthere =>
        rw [walk_lookedUp hhere hname, hthere]
        rfl
    | missing hhere hname hthere =>
        rw [walk_lookedUp hhere hname, hthere]
        rfl
    | link hfollow hhere hname hthere =>
        rw [walk_lookedUp hhere hname, hthere]
        simp [hfollow]
    | jump hfollow hhere hname hthere h ih =>
        rw [walk_lookedUp hhere hname, hthere]
        simp only
        rw [if_neg]
        · exact ih
        · rintro ⟨hrest, hnot⟩
          rw [hfollow hrest] at hnot
          cases hnot

/-- A walk in two parts reaches a folder in between. How many links are left
    for the second part is not said. -/
theorem WalksTo.exists_mid {front back : List String} (hback : back ≠ []) {place : Place}
    (h : WalksTo t true links here (front ++ back) place) :
    ∃ mid k, WalksTo t true links here front (.found mid) ∧
      t.get? mid = some .folder ∧ WalksTo t true k mid back place := by
  generalize hnames : front ++ back = names at h
  have hone : ∀ {front : List String} {name : String}, front ++ back = [name] → front = [] := by
    intro front name heq
    rcases List.append_eq_singleton_iff.mp heq with ⟨rfl, -⟩ | ⟨-, hnil⟩
    · rfl
    · exact absurd hnil hback
  -- Behind a link the names in front are others, so they are kept free.
  induction h generalizing front with
  | stop links here => exact absurd (List.append_eq_nil_iff.mp hnames).2 hback
  | stay hhere h ih =>
      rcases List.append_eq_cons_iff.mp hnames with ⟨rfl, rfl⟩ | ⟨front, rfl, hrest⟩
      · exact ⟨_, _, .stop _ _, hhere, .stay hhere h⟩
      · obtain ⟨mid, k, hfront, hmid⟩ := ih hrest.symm
        exact ⟨mid, k, .stay hhere hfront, hmid⟩
  | up hhere h ih =>
      rcases List.append_eq_cons_iff.mp hnames with ⟨rfl, rfl⟩ | ⟨front, rfl, hrest⟩
      · exact ⟨_, _, .stop _ _, hhere, .up hhere h⟩
      · obtain ⟨mid, k, hfront, hmid⟩ := ih hrest.symm
        exact ⟨mid, k, .up hhere hfront, hmid⟩
  | down hhere hname hthere h ih =>
      rcases List.append_eq_cons_iff.mp hnames with ⟨rfl, rfl⟩ | ⟨front, rfl, hrest⟩
      · exact ⟨_, _, .stop _ _, hhere, .down hhere hname hthere h⟩
      · obtain ⟨mid, k, hfront, hmid⟩ := ih hrest.symm
        exact ⟨mid, k, .down hhere hname hthere hfront, hmid⟩
  | file hhere hname hthere =>
      obtain rfl := hone hnames
      rw [← List.nil_append back, hnames]
      exact ⟨_, 0, .stop _ _, hhere, .file hhere hname hthere⟩
  | missing hhere hname hthere =>
      obtain rfl := hone hnames
      rw [← List.nil_append back, hnames]
      exact ⟨_, 0, .stop _ _, hhere, .missing hhere hname hthere⟩
  | link hfollow => cases hfollow
  | jump hfollow hhere hname hthere h ih =>
      rcases List.append_eq_cons_iff.mp hnames with ⟨rfl, rfl⟩ | ⟨front, rfl, hrest⟩
      · exact ⟨_, _, .stop _ _, hhere, .jump hfollow hhere hname hthere h⟩
      · -- The rest of the first part is walked behind the target of the link.
        obtain ⟨mid, k, hfront, hmid⟩ := ih (by rw [hrest, List.append_assoc])
        exact ⟨mid, k, .jump (fun _ => rfl) hhere hname hthere hfront, hmid⟩

/-- A walk to a folder can be followed by a dot. -/
theorem WalksTo.dot {names : List String} {l : Location}
    (h : WalksTo t true links here names (.found l)) (hl : t.get? l = some .folder) :
    WalksTo t true links here (names ++ ["."]) (.found l) := by
  generalize hplace : Place.found l = place at h
  induction h with
  | stop links here =>
      cases hplace
      exact .stay hl (.stop links l)
  | stay hhere h ih => exact .stay hhere (ih hplace)
  | up hhere h ih => exact .up hhere (ih hplace)
  | down hhere hname hthere h ih => exact .down hhere hname hthere (ih hplace)
  | file hhere hname hthere =>
      cases hplace
      rw [hthere] at hl
      cases hl
  | missing => cases hplace
  | link hfollow => cases hfollow
  | jump hfollow hhere hname hthere h ih =>
      -- The dot stands behind the rest, whatever the target puts in front of it.
      have hdot := ih hplace
      rw [List.append_assoc] at hdot
      exact .jump (fun _ => rfl) hhere hname hthere hdot

/-- A walk that ends with a dot ends at a folder, and ends there without it. -/
theorem WalksTo.of_dot {names : List String} {l : Location}
    (h : WalksTo t true links here (names ++ ["."]) (.found l)) :
    WalksTo t true links here names (.found l) ∧ t.get? l = some .folder := by
  obtain ⟨mid, k, hfront, hmid, hback⟩ := h.exists_mid (List.cons_ne_nil _ _)
  rw [← walk_eq_ok_iff, walk_dot hmid, walk_nil] at hback
  cases hback
  exact ⟨hfront, hmid⟩

/-- What a walk by one name finds is there. -/
theorem WalksTo.isSome_of_name {name : String} (hdot : name ≠ ".") (hdots : name ≠ "..")
    {l : Location} (h : WalksTo t follow links here [name] (.found l)) :
    (t.get? (here ++ [name])).isSome := by
  cases h with
  | stay => exact absurd rfl hdot
  | up => exact absurd rfl hdots
  | down hhere hname hthere => rw [hthere]; rfl
  | file hhere hname hthere => rw [hthere]; rfl
  | link hfollow hhere hname hthere => rw [hthere]; rfl
  | jump hfollow hhere hname hthere => rw [hthere]; rfl

/-- What a walk reports as missing is missing. -/
theorem get?_of_walk_missing (t : FileTree) (follow : Bool) (links : Nat) (here : Location)
    (names : List String) (folder : Location) (n : String)
    (h : t.walk follow links here names = .ok (.missing folder n)) :
    t.get? (folder ++ [n]) = none := by
  rw [walk_eq_ok_iff] at h
  generalize hplace : Place.missing folder n = place at h
  induction h with
  | missing hhere hname hthere =>
      cases hplace
      exact hthere
  | stay hhere h ih => exact ih hplace
  | up hhere h ih => exact ih hplace
  | down hhere hname hthere h ih => exact ih hplace
  | jump hfollow hhere hname hthere h ih => exact ih hplace
  | _ => cases hplace

end

end SchemaRename.FileTree
