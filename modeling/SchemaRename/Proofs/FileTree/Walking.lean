import SchemaRename.Proofs.FileTree.Following
import SchemaRename.Proofs.FileTree.Plain

/-!
# Walking in Plain Trees

Where a walk ends when there are no links.

Without links a walk is a recursion on its names, and depends on nothing but
the folders on its way. What one step does is said once, from both sides: how
a walk goes on from a folder, and what a walk that succeeds has done with its
first name. The rest is by induction on the names.

## Main definitions

* `Place.location`: The location of a place, be it missing.

## Theorems

* `walk_cons`, `walk_name`, `walk_cons_ok`: One step of a walk.
* `isSome_of_walk`, `missing_of_walk`: What is at the end of a walk.
* `location_of_walk`, `walk_of_get?`: Without double dots, a walk goes down
  along its names.
* `walk_append`, `exists_of_walk_append`: A walk in two parts.
* `last_of_walk`: The last name of a walk that does not end at a folder.
* `walk_filter_dots`: Dots on the way do not matter.
* `walk_follow`: Links that are not there are not followed.
* `walk_moreFolders`: A walk ends at the same location in every tree that has
  the same folders, and maybe more.
-/

namespace SchemaRename

/-- The location of a place, be it missing. -/
def Place.location : Place → Location
  | .found l => l
  | .missing folder name => folder ++ [name]

namespace FileTree

theorem IsOrderly.dropLast_folder {t : FileTree} (ht : t.IsOrderly) (l : Location)
    (h : t.get? l = some .folder) : t.get? l.dropLast = some .folder := by
  by_cases hnil : l = []
  · rw [hnil, List.dropLast_nil]
    exact get?_root t
  · rw [← List.dropLast_append_getLast hnil] at h
    exact ht.housed _ _ (by rw [h]; rfl)

theorem filter_ne_dot_ne_nil {names : List String} (hne : names ≠ [])
    (h : names.getLast? ≠ some ".") : names.filter (· != ".") ≠ [] := by
  rw [List.getLast?_eq_some_getLast hne, Ne, Option.some.injEq] at h
  exact List.ne_nil_of_mem (List.mem_filter.mpr ⟨List.getLast_mem hne, by simpa using h⟩)

section Walk

variable {t : FileTree} (ht : t.IsPlain) (follow : Bool) (links : Nat)
include ht

/-- One step of a walk from a folder. -/
theorem walk_cons (here : Location) (name : String) (rest : List String)
    (hhere : t.get? here = some .folder) :
    t.walk follow links here (name :: rest) =
      if name = "." then t.walk follow links here rest
      else if name = ".." then t.walk follow links here.dropLast rest
      else if maxNameSize < name.utf8ByteSize then .error .nameTooLong
      else
        match t.get? (here ++ [name]) with
        | some .folder => t.walk follow links (here ++ [name]) rest
        | some (.file _) =>
          if rest = [] then .ok (.found (here ++ [name])) else .error .notFolder
        | _ => if rest = [] then .ok (.missing here name) else .error .notFound := by
  split
  · next hdot => rw [hdot, walk_dot hhere]
  · next hdot =>
      split
      · next hdots => rw [hdots, walk_dots hhere]
      · next hdots =>
          split
          · next hsize => exact walk_tooLong hhere hdot hdots hsize rest
          · next hsize =>
              rw [walk_lookedUp hhere ⟨hdot, hdots, Nat.not_lt.mp hsize⟩]
              cases hthere : t.get? (here ++ [name]) with
              | none => rfl
              | some entry =>
                  cases entry with
                  | folder => rfl
                  | file content => rfl
                  | link target => exact absurd hthere (ht.unlinked _ _)

/-- A walk from a folder to one of its names. -/
theorem walk_name (l : Location) (hl : t.get? l = some .folder) (name : String)
    (hname : IsFileName name) :
    t.walk follow links l [name] =
      if maxNameSize < name.utf8ByteSize then .error .nameTooLong
      else if t.get? (l ++ [name]) = none then .ok (.missing l name)
      else .ok (.found (l ++ [name])) := by
  rw [walk_cons ht follow links l name [] hl, if_neg hname.ne_dot, if_neg hname.ne_dots]
  cases hentry : t.get? (l ++ [name]) with
  | none => simp
  | some entry =>
      cases entry with
      | folder => simp [walk_nil]
      | file content => simp
      | link target => exact absurd hentry (ht.unlinked _ _)

/-- What a walk that succeeds does with its first name. -/
theorem walk_cons_ok (here : Location) (name : String) (rest : List String) (place : Place)
    (h : t.walk follow links here (name :: rest) = .ok place) :
    t.get? here = some .folder ∧
      ((name = "." ∧ t.walk follow links here rest = .ok place) ∨
        (name = ".." ∧ t.walk follow links here.dropLast rest = .ok place) ∨
        (name ≠ "." ∧ name ≠ ".." ∧ name.utf8ByteSize ≤ maxNameSize ∧
          ((t.get? (here ++ [name]) = some .folder ∧
              t.walk follow links (here ++ [name]) rest = .ok place) ∨
            (rest = [] ∧ place = .found (here ++ [name]) ∧
              ∃ content, t.get? (here ++ [name]) = some (.file content)) ∨
            (rest = [] ∧ place = .missing here name ∧ t.get? (here ++ [name]) = none)))) := by
  have hback : ∀ {here : Location} {names : List String}, WalksTo t follow links here names place →
      t.walk follow links here names = .ok place := (walk_eq_ok_iff links _ _ place).mpr
  rw [walk_eq_ok_iff] at h
  cases h with
  | stay hhere h => exact ⟨hhere, Or.inl ⟨rfl, hback h⟩⟩
  | up hhere h => exact ⟨hhere, Or.inr (Or.inl ⟨rfl, hback h⟩)⟩
  | down hhere hname hthere h =>
      exact ⟨hhere, Or.inr (Or.inr ⟨hname.ne_dot, hname.ne_dots, hname.size,
        Or.inl ⟨hthere, hback h⟩⟩)⟩
  | file hhere hname hthere =>
      exact ⟨hhere, Or.inr (Or.inr ⟨hname.ne_dot, hname.ne_dots, hname.size,
        Or.inr (Or.inl ⟨rfl, rfl, _, hthere⟩)⟩)⟩
  | missing hhere hname hthere =>
      exact ⟨hhere, Or.inr (Or.inr ⟨hname.ne_dot, hname.ne_dots, hname.size,
        Or.inr (Or.inr ⟨rfl, rfl, hthere⟩)⟩)⟩
  | link hfollow hhere hname hthere => exact absurd hthere (ht.unlinked _ _)
  | jump hfollow hhere hname hthere => exact absurd hthere (ht.unlinked _ _)

/-- What a walk finds is there. -/
theorem isSome_of_walk (here : Location) (names : List String) (l : Location)
    (hhere : (t.get? here).isSome) (h : t.walk follow links here names = .ok (.found l)) :
    (t.get? l).isSome := by
  induction names generalizing here with
  | nil =>
      rw [walk_nil] at h
      cases h
      exact hhere
  | cons name rest ih =>
      rcases walk_cons_ok ht follow links here name rest _ h with
        ⟨hfolder, ⟨-, h⟩ | ⟨-, h⟩ | ⟨-, -, -, ⟨hthere, h⟩ | ⟨-, hl, _, hthere⟩ | ⟨-, hl, -⟩⟩⟩
      · exact ih here hhere h
      · exact ih here.dropLast (by rw [ht.dropLast_folder here hfolder]; rfl) h
      · exact ih (here ++ [name]) (by rw [hthere]; rfl) h
      · cases hl
        rw [hthere]
        rfl
      · cases hl

/-- What a walk misses is a proper name in the folder it ends in. -/
theorem missing_of_walk (here : Location) (names : List String) (folder : Location)
    (n : String) (h : t.walk follow links here names = .ok (.missing folder n)) :
    t.get? folder = some .folder ∧ n ∈ names ∧ n ≠ "." ∧ n ≠ ".." ∧
      n.utf8ByteSize ≤ maxNameSize := by
  induction names generalizing here with
  | nil =>
      rw [walk_nil] at h
      cases h
  | cons name rest ih =>
      have hrest : ∀ next, t.walk follow links next rest = .ok (.missing folder n) →
          t.get? folder = some .folder ∧ n ∈ name :: rest ∧ n ≠ "." ∧ n ≠ ".." ∧
            n.utf8ByteSize ≤ maxNameSize := by
        intro next hnext
        obtain ⟨hfolder, hmem, hproper⟩ := ih next hnext
        exact ⟨hfolder, List.mem_cons_of_mem name hmem, hproper⟩
      rcases walk_cons_ok ht follow links here name rest _ h with
        ⟨hfolder, ⟨-, h⟩ | ⟨-, h⟩ |
          ⟨hdot, hdots, hsize, ⟨-, h⟩ | ⟨-, hl, -⟩ | ⟨-, hl, -⟩⟩⟩
      · exact hrest here h
      · exact hrest here.dropLast h
      · exact hrest (here ++ [name]) h
      · cases hl
      · cases hl
        exact ⟨hfolder, List.mem_cons_self, hdot, hdots, hsize⟩

/-- Without double dots, a walk goes down along the names. -/
theorem location_of_walk (here : Location) (names : List String) (place : Place)
    (hdots : ".." ∉ names) (h : t.walk follow links here names = .ok place) :
    place.location = here ++ names.filter (· != ".") := by
  induction names generalizing here with
  | nil =>
      rw [walk_nil] at h
      cases h
      simp [Place.location]
  | cons name rest ih =>
      have hrest : ".." ∉ rest := fun hmem => hdots (List.mem_cons_of_mem name hmem)
      rcases walk_cons_ok ht follow links here name rest _ h with
        ⟨-, ⟨rfl, hwalk⟩ | ⟨rfl, -⟩ | ⟨hdot, -, -, ⟨-, hwalk⟩ | ⟨rfl, rfl, -⟩ | ⟨rfl, rfl, -⟩⟩⟩
      · rw [ih here hrest hwalk]
        simp
      · exact absurd List.mem_cons_self hdots
      · rw [ih (here ++ [name]) hrest hwalk, List.filter_cons_of_pos (by simpa using hdot)]
        simp
      · simp [Place.location, hdot]
      · simp [Place.location, hdot]

/-- What stands at the end of some names is found there. -/
theorem walk_of_get? (here : Location) (names : List String) (e : Entry)
    (hdots : ".." ∉ names) (h : t.get? (here ++ names.filter (· != ".")) = some e)
    (hlast : e = .folder ∨ names.getLast? ≠ some ".") :
    t.walk follow links here names = .ok (.found (here ++ names.filter (· != "."))) := by
  induction names generalizing here with
  | nil => simp [walk_nil]
  | cons name rest ih =>
      have hrest : ".." ∉ rest := fun hmem => hdots (List.mem_cons_of_mem name hmem)
      have hlast' : rest ≠ [] → e = .folder ∨ rest.getLast? ≠ some "." := by
        intro hne
        rwa [List.getLast?_cons, List.getLast?_eq_some_getLast hne, Option.getD_some,
          ← List.getLast?_eq_some_getLast hne] at hlast
      by_cases hdot : name = "."
      · subst hdot
        have hfilter : ("." :: rest).filter (· != ".") = rest.filter (· != ".") := by simp
        rw [hfilter] at h ⊢
        have hhere : t.get? here = some .folder := by
          by_cases hnil : rest.filter (· != ".") = []
          · rw [hnil, List.append_nil] at h
            have hfolder : e = .folder := by
              by_cases hr : rest = []
              · subst hr
                simpa using hlast
              · exact (hlast' hr).resolve_right fun hne => filter_ne_dot_ne_nil hr hne hnil
            rw [h, hfolder]
          · exact ht.folder_of_prefix here _ hnil (by rw [h]; rfl)
        rw [walk_cons ht follow links here "." rest hhere, if_pos rfl]
        by_cases hr : rest = []
        · subst hr
          simp [walk_nil]
        · exact ih here hrest h (hlast' hr)
      · have hname : name ≠ ".." := fun heq => hdots (by rw [heq]; exact List.mem_cons_self)
        have hfilter : (name :: rest).filter (· != ".") = name :: rest.filter (· != ".") :=
          List.filter_cons_of_pos (by simpa using hdot)
        rw [hfilter] at h ⊢
        rw [List.append_cons] at h ⊢
        have hhere : t.get? here = some .folder :=
          ht.folder_of_prefix here (name :: rest.filter (· != ".")) (List.cons_ne_nil _ _)
            (by rw [List.append_cons, h]; rfl)
        have hsize : ¬ maxNameSize < name.utf8ByteSize := by
          have := size_le_of_isEntryName
            (ht.named _ (by rw [h]; rfl) name (by simp))
          omega
        rw [walk_cons ht follow links here name rest hhere, if_neg hdot, if_neg hname,
          if_neg hsize]
        by_cases hr : rest = []
        · subst hr
          rw [List.filter_nil, List.append_nil] at h ⊢
          rw [h]
          cases e with
          | folder => simp [walk_nil]
          | file content => rfl
          | link target => exact absurd h (ht.unlinked _ _)
        · have hthere : t.get? (here ++ [name]) = some .folder := by
            by_cases hnil : rest.filter (· != ".") = []
            · have hfolder : e = .folder :=
                (hlast' hr).resolve_right fun hne => filter_ne_dot_ne_nil hr hne hnil
              rwa [hnil, List.append_nil, hfolder] at h
            · exact ht.folder_of_prefix _ _ hnil (by rw [h]; rfl)
          rw [hthere]
          exact ih (here ++ [name]) hrest h (hlast' hr)

/-- Where there are no links, it does not matter whether and how often they
    would be followed. -/
theorem walk_follow (here : Location) (names : List String) :
    t.walk follow links here names = t.walk true maxLinks here names := by
  induction names generalizing here with
  | nil => rw [walk_nil, walk_nil]
  | cons name rest ih =>
      by_cases hhere : t.get? here = some .folder
      · rw [walk_cons ht _ _ _ _ _ hhere, walk_cons ht _ _ _ _ _ hhere, ih, ih, ih]
      · rw [walk_cons_of_ne t _ _ _ _ _ hhere, walk_cons_of_ne t _ _ _ _ _ hhere]

/-- A walk that reaches a folder goes on from there. -/
theorem walk_append (here : Location) (front back : List String)
    (mid : Location) (hmid : t.get? mid = some .folder)
    (h : t.walk follow links here front = .ok (.found mid)) :
    t.walk follow links here (front ++ back) = t.walk follow links mid back := by
  induction front generalizing here with
  | nil =>
      rw [walk_nil] at h
      cases h
      rfl
  | cons name front ih =>
      obtain ⟨hhere, hcases⟩ := walk_cons_ok ht follow links here name front _ h
      rw [List.cons_append, walk_cons ht follow links here name (front ++ back) hhere]
      rcases hcases with ⟨rfl, hrest⟩ | ⟨rfl, hrest⟩ |
        ⟨hdot, hdots, hsize, ⟨hthere, hrest⟩ | ⟨-, heq, content, hfile⟩ | ⟨-, heq, -⟩⟩
      · rw [if_pos rfl]
        exact ih here hrest
      · rw [if_neg (by decide), if_pos rfl]
        exact ih here.dropLast hrest
      · rw [if_neg hdot, if_neg hdots, if_neg (by omega), hthere]
        exact ih (here ++ [name]) hrest
      · cases heq
        rw [hfile] at hmid
        cases hmid
      · cases heq

/-- A walk that has names left has reached a folder. -/
theorem exists_of_walk_append (here : Location)
    (front back : List String) (hback : back ≠ []) (place : Place)
    (h : t.walk follow links here (front ++ back) = .ok place) :
    ∃ mid, t.walk follow links here front = .ok (.found mid) ∧
      t.get? mid = some .folder ∧ t.walk follow links mid back = .ok place := by
  rw [walk_follow ht, walk_eq_ok_iff] at h
  obtain ⟨mid, k, hfront, hmid, hwalk⟩ := h.exists_mid hback
  rw [← walk_eq_ok_iff] at hfront hwalk
  refine ⟨mid, ?_, hmid, ?_⟩
  · rw [walk_follow ht, hfront]
  · rw [walk_follow ht, ← walk_follow ht true k, hwalk]

/-- A walk that goes on with names goes down from a folder. -/
theorem location_of_walk_down (here : Location) (front names : List String) (hne : names ≠ [])
    (hnames : ∀ n ∈ names, IsFileName n) (place : Place)
    (h : t.walk follow links here (front ++ names) = .ok place) :
    ∃ mid, t.walk follow links here front = .ok (.found mid) ∧
      t.get? mid = some .folder ∧ place.location = mid ++ names := by
  obtain ⟨mid, hmid, hfolder, hwalk⟩ :=
    exists_of_walk_append ht follow links here front names hne place h
  have hlocation := location_of_walk ht follow links mid names place
    (fun hmem => (hnames _ hmem).ne_dots rfl) hwalk
  rw [List.filter_eq_self.mpr fun n hn => by simpa using (hnames n hn).ne_dot] at hlocation
  exact ⟨mid, hmid, hfolder, hlocation⟩

/-- A walk that does not end at a folder ends with the name of its place. -/
theorem last_of_walk (here : Location) (names : List String)
    (hhere : t.get? here = some .folder) (place : Place)
    (hplace : t.get? place.location ≠ some .folder)
    (h : t.walk follow links here names = .ok place) :
    ∃ front folder n, names = front ++ [n] ∧ place.location = folder ++ [n] ∧
      n ≠ "." ∧ n ≠ ".." := by
  induction names generalizing here with
  | nil =>
      rw [walk_nil] at h
      cases h
      exact absurd hhere hplace
  | cons name names ih =>
      have hrest : ∀ next, t.get? next = some .folder →
          t.walk follow links next names = .ok place →
          ∃ front folder n, name :: names = front ++ [n] ∧ place.location = folder ++ [n] ∧
            n ≠ "." ∧ n ≠ ".." := by
        intro next hnext hwalk
        obtain ⟨front, folder, n, rfl, hl⟩ := ih next hnext hwalk
        exact ⟨name :: front, folder, n, rfl, hl⟩
      rcases walk_cons_ok ht follow links here name names _ h with
        ⟨-, ⟨-, hwalk⟩ | ⟨-, hwalk⟩ |
          ⟨hdot, hdots, -, ⟨hthere, hwalk⟩ | ⟨rfl, rfl, -⟩ | ⟨rfl, rfl, -⟩⟩⟩
      · exact hrest here hhere hwalk
      · exact hrest here.dropLast (ht.dropLast_folder here hhere) hwalk
      · exact hrest (here ++ [name]) hthere hwalk
      · exact ⟨[], here, name, rfl, rfl, hdot, hdots⟩
      · exact ⟨[], here, name, rfl, rfl, hdot, hdots⟩

/-- Dots on the way do not matter. -/
theorem walk_filter_dots (here : Location) (names : List String)
    (hlast : names.getLast? ≠ some ".") :
    t.walk follow links here names = t.walk follow links here (names.filter (· != ".")) := by
  induction names generalizing here with
  | nil => rfl
  | cons name rest ih =>
      have hlast' : rest ≠ [] → rest.getLast? ≠ some "." := by
        intro hne
        rwa [List.getLast?_cons, List.getLast?_eq_some_getLast hne, Option.getD_some,
          ← List.getLast?_eq_some_getLast hne] at hlast
      have hnil : rest = [] ↔ rest.filter (· != ".") = [] := by
        constructor
        · rintro rfl
          rfl
        · intro hfilter
          by_contra hne
          exact filter_ne_dot_ne_nil hne (hlast' hne) hfilter
      have hrest : ∀ next, t.walk follow links next rest =
          t.walk follow links next (rest.filter (· != ".")) := by
        intro next
        by_cases hne : rest = []
        · rw [hne]
          rfl
        · exact ih next (hlast' hne)
      by_cases hdot : name = "."
      · subst hdot
        rw [show ("." :: rest).filter (· != ".") = rest.filter (· != ".") by simp]
        have hne : rest ≠ [] := by
          rintro rfl
          exact hlast rfl
        rw [← hrest here]
        by_cases hhere : t.get? here = some .folder
        · rw [walk_cons ht follow links here "." rest hhere, if_pos rfl]
        · obtain ⟨next, others, rfl⟩ := List.exists_cons_of_ne_nil hne
          rw [walk_cons_of_ne t _ _ _ _ _ hhere, walk_cons_of_ne t _ _ _ _ _ hhere]
      · rw [List.filter_cons_of_pos (by simpa using hdot)]
        by_cases hhere : t.get? here = some .folder
        · rw [walk_cons ht _ _ _ _ _ hhere, walk_cons ht _ _ _ _ _ hhere, hrest, hrest, hrest]
          simp only [hnil]
        · rw [walk_cons_of_ne t _ _ _ _ _ hhere, walk_cons_of_ne t _ _ _ _ _ hhere]

/-- A walk ends at the same location in every tree that has the same folders,
    and maybe more. -/
theorem walk_moreFolders {t' : FileTree} (ht' : t'.IsPlain)
    (h : ∀ l, t.get? l = some .folder → t'.get? l = some .folder)
    (follow : Bool) (links : Nat) (here : Location) (names : List String) (place : Place)
    (hwalk : t.walk follow links here names = .ok place) :
    ∃ place', t'.walk follow links here names = .ok place' ∧
      place'.location = place.location := by
  induction names generalizing here with
  | nil =>
      rw [walk_nil] at hwalk
      cases hwalk
      exact ⟨.found here, walk_nil t' follow links here, rfl⟩
  | cons name rest ih =>
      rcases walk_cons_ok ht follow links here name rest _ hwalk with
        ⟨hfolder, hcases⟩
      rw [walk_cons ht' follow links here name rest (h here hfolder)]
      rcases hcases with ⟨rfl, hrest⟩ | ⟨rfl, hrest⟩ | ⟨hdot, hdots, hsize, hcases⟩
      · rw [if_pos rfl]
        exact ih here hrest
      · rw [if_neg (by decide), if_pos rfl]
        exact ih here.dropLast hrest
      rw [if_neg hdot, if_neg hdots, if_neg (by omega)]
      rcases hcases with ⟨hthere, hrest⟩ | hend
      · rw [h _ hthere]
        exact ih (here ++ [name]) hrest
      -- The last name is no folder in the first tree: whatever it is in the second
      -- one, it is the same place.
      obtain ⟨rfl, hlocation⟩ : rest = [] ∧ place.location = here ++ [name] := by
        rcases hend with ⟨hrest, rfl, -⟩ | ⟨hrest, rfl, -⟩
        · exact ⟨hrest, rfl⟩
        · exact ⟨hrest, rfl⟩
      cases hthere : t'.get? (here ++ [name]) with
      | none => exact ⟨_, rfl, hlocation.symm⟩
      | some entry =>
          cases entry with
          | folder => exact ⟨_, walk_nil t' follow links _, hlocation.symm⟩
          | file content => exact ⟨_, rfl, hlocation.symm⟩
          | link target => exact absurd hthere (ht'.unlinked _ _)

end Walk

end FileTree

end SchemaRename
