import SchemaRename.Proofs.FileTree.Places
import SchemaRename.Proofs.FileTree.TidyPath
import SchemaRename.Proofs.Glob.Escaped

/-!
# Entries That a Pattern of Stars Lists

What is found with an escaped path and stars behind it.

The search passes the pieces of the path one by one and then lists as many
levels as there are stars. A piece can be passed or not, and what is listed
below the path depends on the path only, so the result is the list of names
at that depth, if the path can be passed.

The search spells what it finds in its own way: doubled slashes are gone, and
so is a dot in front. A path that starts with no dot is otherwise spelled as
it was, and its components are what they were.

In an orderly tree a path that leads to a folder can be passed in exactly one
way, and links on the way do not matter. So every name is listed once, and how
many slashes the path is spelled with makes no difference to what is listed two
and more levels below it. In a plain tree every entry whose path is not too
long is listed.

## Main definitions

* `descend`, `spelled`: A path with pieces behind it, and a path from its
  start, as the search spells them.
* `namesIn`, `namesAt`: The names in a folder, and at some depth below it.
* `ways`: In how many ways the pieces of a path can be passed.

## Theorems

* `find_escape`: What is found, in any tree.
* `find_eq`: What is found in an orderly tree.
* `namesAt_spelled`: Slashes make no difference.
* `nodup_namesAt`, `mem_namesAt`: Every entry is listed once.
-/

namespace SchemaRename

namespace Glob

/-- A path with pieces behind it, as the search spells it. -/
def descend (folder : Path) (pieces : List String) : Path :=
  pieces.foldl inFolder folder

theorem inFolder_of_ne (folder : Path) (name : String) (h : folder.text ≠ ".") :
    inFolder folder name = folder.join name := by
  rw [inFolder, if_neg (by simpa using h)]

theorem descend_of_undotted (folder : Path) (hfolder : folder.Undotted) (pieces : List String)
    (hpieces : ∀ s ∈ pieces, '/' ∉ s.toList) : descend folder pieces = folder.extend pieces := by
  induction pieces generalizing folder with
  | nil => rfl
  | cons piece pieces ih =>
      have hjoin := hfolder.join piece (hpieces piece List.mem_cons_self)
      have htail : ∀ s ∈ pieces, '/' ∉ s.toList := fun s hs =>
        hpieces s (List.mem_cons_of_mem _ hs)
      rw [descend, List.foldl_cons, inFolder_of_ne _ _ hfolder.text_ne_dot]
      exact ih _ hjoin htail

/-- How the search spells a path: its pieces behind its start. -/
def spelled (p : Path) : Path :=
  descend (startOf p) (piecesBehind p)

theorem noSlash_of_mem_piecesBehind (p : Path) : ∀ s ∈ piecesBehind p, '/' ∉ s.toList := by
  intro s hs
  rw [piecesBehind] at hs
  split at hs
  · exact Path.noSlash_of_mem_pieces p s (List.mem_of_mem_tail hs)
  · exact Path.noSlash_of_mem_pieces p s hs

theorem ne_dots_of_mem_piecesBehind (p : Path) (hdots : ".." ∉ p.steps) (s : String)
    (hs : s ∈ piecesBehind p) : s ≠ ".." := by
  rintro rfl
  have hmem : ".." ∈ p.pieces := by
    rw [piecesBehind] at hs
    split at hs
    · exact List.mem_of_mem_tail hs
    · exact hs
  exact hdots (List.mem_filter.mpr ⟨hmem, by decide⟩)

/-- The search spells a path that starts with no dot as the path is, and drops
    what says nothing. -/
theorem spelled_eq (p : Path) (hp : p.Undotted) :
    ∃ (start : Path) (pieces : List String), spelled p = start.extend pieces ∧ start.Undotted ∧
      (∀ s ∈ pieces, '/' ∉ s.toList) ∧ p.tidy = start.extend (pieces.filter (· != "")) := by
  cases habsolute : p.isAbsolute with
  | true =>
      have hslash : (Path.mk "/").Undotted := Path.undotted_of_isAbsolute _ (by decide)
      obtain ⟨piece, rest, hpieces⟩ := Path.pieces_of_isAbsolute p habsolute
      have hbehind := noSlash_of_mem_piecesBehind p
      refine ⟨⟨"/"⟩, piecesBehind p, ?_, hslash, hbehind, ?_⟩
      · rw [spelled, startOf, habsolute, if_pos rfl]
        exact descend_of_undotted _ hslash _ hbehind
      · rw [Path.tidy, habsolute, if_pos rfl, Path.steps, piecesBehind, habsolute, if_pos rfl,
          hpieces, List.filter_cons_of_neg (by simp)]
        rfl
  | false =>
      obtain ⟨first, rest, hpieces, hne, -, hslash, hfirst⟩ := hp.pieces habsolute
      have hrest : ∀ s ∈ rest, '/' ∉ s.toList := by
        intro s hs
        exact Path.noSlash_of_mem_pieces p s (by rw [hpieces]; exact List.mem_cons_of_mem _ hs)
      refine ⟨⟨first⟩, rest, ?_, hfirst, hrest, ?_⟩
      · rw [spelled, startOf, habsolute, if_neg Bool.false_ne_true, piecesBehind, habsolute,
          if_neg Bool.false_ne_true, hpieces]
        exact descend_of_undotted _ hfirst _ hrest
      · rw [Path.tidy, habsolute, if_neg Bool.false_ne_true, Path.steps, hpieces,
          List.filter_cons_of_pos (by simpa using hne), Path.extend_cons,
          Path.empty_join first hslash]

/-- The search spells a path that starts with no dot tidily, but for a slash at
    its end. -/
theorem spelled_eq_tidy (p : Path) (hp : p.Undotted) :
    spelled p = p.tidy ∨ spelled p = p.tidy.join "" := by
  obtain ⟨start, pieces, heq, -, hpieces, htidy⟩ := spelled_eq p hp
  rw [heq, htidy]
  exact Path.extend_eq_filter start pieces hpieces

theorem undotted_spelled (p : Path) (hp : p.Undotted) : (spelled p).Undotted := by
  obtain ⟨start, pieces, heq, hstart, hpieces, -⟩ := spelled_eq p hp
  rw [heq]
  exact hstart.extend pieces hpieces

theorem spelled_join (p : Path) (hp : p.Undotted) (s : String) (hs : '/' ∉ s.toList) :
    (spelled p).join s = p.tidy.join s := by
  obtain ⟨start, pieces, heq, -, hpieces, htidy⟩ := spelled_eq p hp
  rw [heq, htidy]
  exact Path.extend_filter_join start pieces hpieces s hs

/-- What is found below a path is spelled as the tidy path with names behind
    it. -/
theorem descend_spelled (p : Path) (hp : p.Undotted) (names : List String) (hne : names ≠ [])
    (h : ∀ s ∈ names, '/' ∉ s.toList) : descend (spelled p) names = p.tidy.extend names := by
  rw [descend_of_undotted _ (undotted_spelled p hp) names h]
  cases names with
  | nil => exact absurd rfl hne
  | cons name names =>
      rw [Path.extend_cons, Path.extend_cons, spelled_join p hp name (h name List.mem_cons_self)]

theorem steps_spelled (p : Path) (hp : p.Undotted) : (spelled p).steps = p.steps := by
  obtain ⟨start, pieces, heq, -, hpieces, htidy⟩ := spelled_eq p hp
  have hfilter : ∀ s ∈ pieces.filter (· != ""), '/' ∉ s.toList := fun s hs =>
    hpieces s (List.mem_filter.mp hs).1
  rw [← Path.steps_tidy p, heq, htidy, Path.steps_extend _ _ hpieces, Path.steps_extend _ _ hfilter,
    List.filter_filter]
  simp

/-- The search joins a name to a folder, and leaves the dot of the working folder
    out. -/
theorem inFolder_cases (folder : Path) (piece : String) (hpiece : '/' ∉ piece.toList) :
    inFolder folder piece = folder.join piece ∨
      (folder = ⟨"."⟩ ∧ inFolder folder piece = (Path.mk "").join piece) := by
  by_cases hdot : folder.text = "."
  · right
    refine ⟨congrArg Path.mk hdot, ?_⟩
    rw [Path.empty_join piece hpiece, inFolder, if_pos (by simpa using hdot)]
  · exact Or.inl (inFolder_of_ne folder piece hdot)

theorem location_dot (t : FileTree) : t.location ⟨"."⟩ = t.workingFolder := by
  rw [FileTree.location, FileTree.origin, if_neg (by decide),
    show (Path.mk ".").steps.filter (· != ".") = [] by decide, List.append_nil]

theorem location_root (t : FileTree) : t.location ⟨"/"⟩ = [] := by
  rw [FileTree.location, FileTree.origin, if_pos (by decide),
    show (Path.mk "/").steps.filter (· != ".") = [] by decide, List.append_nil]

theorem location_inFolder (t : FileTree) (folder : Path) (piece : String)
    (hpiece : '/' ∉ piece.toList) :
    t.location (inFolder folder piece) =
      t.location folder ++ [piece].filter (fun n => n != "." && n != "") := by
  rcases inFolder_cases folder piece hpiece with heq | ⟨rfl, heq⟩
  · rw [heq, FileTree.location_join t folder piece hpiece]
  · have hempty : t.location ⟨""⟩ = t.workingFolder := by
      rw [FileTree.location, FileTree.origin, if_neg (by decide),
        show (Path.mk "").steps.filter (· != ".") = [] by decide, List.append_nil]
    rw [heq, FileTree.location_join t ⟨""⟩ piece hpiece, hempty, location_dot]

theorem location_inFolder_name (t : FileTree) (folder : Path) (name : String)
    (hname : IsFileName name) :
    t.location (inFolder folder name) = t.location folder ++ [name] := by
  rw [location_inFolder t folder name hname.noSlash]
  simp [hname.ne_dot, hname.ne_empty]

theorem dots_inFolder (folder : Path) (piece : String) (hpiece : '/' ∉ piece.toList)
    (hne : piece ≠ "..") (hdots : ".." ∉ folder.steps) : ".." ∉ (inFolder folder piece).steps := by
  rcases inFolder_cases folder piece hpiece with heq | ⟨-, heq⟩
  · rw [heq]
    exact folder.dots_join piece hpiece hne hdots
  · rw [heq]
    exact (Path.mk "").dots_join piece hpiece hne (by decide)

theorem location_descend (t : FileTree) (folder : Path) (pieces : List String)
    (hpieces : ∀ s ∈ pieces, '/' ∉ s.toList) :
    t.location (descend folder pieces) =
      t.location folder ++ pieces.filter (fun n => n != "." && n != "") := by
  induction pieces generalizing folder with
  | nil => simp [descend]
  | cons piece pieces ih =>
      have hrest := ih (inFolder folder piece) fun s hs => hpieces s (List.mem_cons_of_mem _ hs)
      rw [descend, List.foldl_cons]
      rw [descend] at hrest
      rw [hrest, location_inFolder t folder piece (hpieces piece List.mem_cons_self),
        List.append_assoc, ← List.filter_append]
      rfl

/-- A path leads where it led, however the search spells it. -/
theorem location_spelled (t : FileTree) (p : Path) : t.location (spelled p) = t.location p := by
  rw [spelled, location_descend t _ _ (noSlash_of_mem_piecesBehind p), startOf, piecesBehind,
    FileTree.location.eq_1 t p, FileTree.origin, Path.steps, List.filter_filter]
  cases habsolute : p.isAbsolute with
  | true =>
      obtain ⟨piece, rest, hpieces⟩ := Path.pieces_of_isAbsolute p habsolute
      rw [if_pos rfl, if_pos rfl, if_pos rfl, location_root, hpieces]
      simp
  | false =>
      rw [if_neg Bool.false_ne_true, if_neg Bool.false_ne_true, if_neg Bool.false_ne_true,
        location_dot]

/-- The search adds no double dots to a path. -/
theorem dots_spelled (p : Path) (hdots : ".." ∉ p.steps) : ".." ∉ (spelled p).steps := by
  have hdescend : ∀ (pieces : List String) (folder : Path),
      (∀ s ∈ pieces, '/' ∉ s.toList ∧ s ≠ "..") → ".." ∉ folder.steps →
      ".." ∉ (descend folder pieces).steps := by
    intro pieces
    induction pieces with
    | nil => exact fun folder _ hfolder => hfolder
    | cons piece pieces ih =>
        intro folder hpieces hfolder
        obtain ⟨hslash, hne⟩ := hpieces piece List.mem_cons_self
        exact ih _ (fun s hs => hpieces s (List.mem_cons_of_mem _ hs))
          (dots_inFolder folder piece hslash hne hfolder)
  refine hdescend _ _ ?_ ?_
  · exact fun s hs => ⟨noSlash_of_mem_piecesBehind p s hs, ne_dots_of_mem_piecesBehind p hdots s hs⟩
  · rw [startOf]
    split <;> decide

/-- The search spells the working folder as a dot or not at all, and any other
    path without a dot in front. -/
theorem spelled_cases (p : Path) :
    (spelled p).Undotted ∨ spelled p = ⟨"."⟩ ∨ spelled p = ⟨""⟩ := by
  have hplain : ∀ piece : String, '/' ∉ piece.toList →
      (Path.mk piece).Undotted ∨ Path.mk piece = ⟨"."⟩ ∨ Path.mk piece = ⟨""⟩ := by
    intro piece hslash
    by_cases hempty : piece = ""
    · exact Or.inr (Or.inr (congrArg Path.mk hempty))
    · by_cases hdot : piece = "."
      · exact Or.inr (Or.inl (congrArg Path.mk hdot))
      · refine Or.inl ⟨hempty, ?_⟩
        rw [Path.pieces_of_noSlash piece hslash]
        simpa using hdot
  have hdescend : ∀ (pieces : List String) (folder : Path), (∀ s ∈ pieces, '/' ∉ s.toList) →
      folder.Undotted ∨ folder = ⟨"."⟩ ∨ folder = ⟨""⟩ →
      (descend folder pieces).Undotted ∨ descend folder pieces = ⟨"."⟩ ∨
        descend folder pieces = ⟨""⟩ := by
    intro pieces
    induction pieces with
    | nil => exact fun folder _ hfolder => hfolder
    | cons piece pieces ih =>
        intro folder hpieces hfolder
        have hslash := hpieces piece List.mem_cons_self
        refine ih _ (fun s hs => hpieces s (List.mem_cons_of_mem _ hs)) ?_
        rcases hfolder with hfolder | rfl | rfl
        · rw [inFolder_of_ne _ _ hfolder.text_ne_dot]
          exact Or.inl (hfolder.join piece hslash)
        · exact hplain piece hslash
        · rw [inFolder_of_ne _ _ (by decide), Path.empty_join piece hslash]
          exact hplain piece hslash
  refine hdescend _ _ (noSlash_of_mem_piecesBehind p) ?_
  rw [startOf]
  split
  · exact Or.inl (Path.undotted_of_isAbsolute _ (by decide))
  · exact Or.inr (Or.inl rfl)

/-- The names in a folder, or none if there is no such folder. -/
def namesIn (t : FileTree) (folder : Path) : List String :=
  if t.isFolder folder then (t.list folder).toOption.getD [] else []

/-- The names at some depth below a folder. -/
def namesAt (t : FileTree) : Nat → Path → List (List String)
  | 0, _ => [[]]
  | n + 1, folder =>
    (namesIn t folder).flatMap fun name => (namesAt t n (inFolder folder name)).map (name :: ·)

/-- In how many ways a piece can be passed: a piece with brackets is looked for
    among the names of the folder. -/
def waysOf (t : FileTree) (folder : Path) (piece : String) : Nat :=
  match (Step.escaped piece).literal? with
  | some _ =>
    let isSpecial := piece == "." || piece == ".."
    if (isSpecial && t.isFolder folder) || (!isSpecial && t.isPresent (inFolder folder piece)) then
      1
    else 0
  | none => (namesIn t folder).count piece

/-- In how many ways some pieces can be passed. -/
def ways (t : FileTree) : Path → List String → Nat
  | _, [] => 1
  | folder, piece :: pieces => waysOf t folder piece * ways t (inFolder folder piece) pieces

theorem list_ok (t : FileTree) (folder : Path) (names : List String)
    (h : t.list folder = .ok names) : ∃ l, names = t.children l := by
  rw [FileTree.list] at h
  cases hlocate : t.locate true folder with
  | error e => simp [hlocate, bind, Except.bind] at h
  | ok l =>
      simp only [hlocate, bind, Except.bind] at h
      refine ⟨l, ?_⟩
      cases hget : t.get? l with
      | none => simp [hget, throw, throwThe, MonadExceptOf.throw] at h
      | some entry =>
          cases entry with
          | folder => simpa [hget, pure, Except.pure] using h.symm
          | file content => simp [hget, throw, throwThe, MonadExceptOf.throw] at h
          | link target => simp [hget, throw, throwThe, MonadExceptOf.throw] at h

/-- No name in a folder is listed twice. -/
theorem nodup_namesIn (t : FileTree) (ht : (t.entries.map Prod.fst).Nodup) (folder : Path) :
    (namesIn t folder).Nodup := by
  rw [namesIn]
  split
  · cases hlist : t.list folder with
    | error e => exact List.nodup_nil
    | ok names =>
        obtain ⟨l, rfl⟩ := list_ok t folder names hlist
        exact FileTree.nodup_children t ht l
  · exact List.nodup_nil

/-- No entry is listed twice. -/
theorem nodup_namesAt (t : FileTree) (ht : (t.entries.map Prod.fst).Nodup) (n : Nat)
    (folder : Path) : (namesAt t n folder).Nodup := by
  induction n generalizing folder with
  | zero => exact List.nodup_singleton _
  | succ n ih =>
      rw [namesAt, List.nodup_flatMap]
      refine ⟨fun name _ => (ih _).map List.cons_injective, (nodup_namesIn t ht folder).imp ?_⟩
      intro name other hne
      simp only [Function.onFun, List.disjoint_left, List.mem_map]
      rintro names ⟨rest, -, rfl⟩ ⟨rest', -, heq⟩
      exact hne (List.cons.inj heq).1.symm

/-- Some pieces can be passed in one way at most. -/
theorem ways_le_one (t : FileTree) (ht : (t.entries.map Prod.fst).Nodup) (folder : Path)
    (pieces : List String) : ways t folder pieces ≤ 1 := by
  induction pieces generalizing folder with
  | nil => exact Nat.le_refl 1
  | cons piece pieces ih =>
      have hfirst : waysOf t folder piece ≤ 1 := by
        unfold waysOf
        split
        · simp only
          split <;> omega
        · exact List.nodup_iff_count_le_one.mp (nodup_namesIn t ht folder) piece
      rw [ways]
      exact Nat.mul_le_mul hfirst (ih _)

theorem reached_cons (t : FileTree) (foldersOnly : Bool) (fuel : Nat) (step : Step)
    (steps : List Step) (path : Path) :
    reached t foldersOnly (fuel + 1) (step :: steps) path =
      below t foldersOnly fuel (step :: steps) path := by
  rw [reached]
  exact List.cons_ne_nil _ _

theorem fileName?_inFolder (folder : Path) (name : String) (h : IsFileName name) :
    (inFolder folder name).fileName? = some name := by
  rw [inFolder]
  split
  · have hname := Path.fileName?_join ⟨""⟩ name h
    rwa [Path.empty_join name h.noSlash] at hname
  · exact Path.fileName?_join folder name h

theorem flatMap_single (names : List String) (piece : String) (found : List Path) :
    (names.flatMap fun name => if name = piece then found else []) =
      (List.replicate (names.count piece) found).flatten := by
  induction names with
  | nil => rfl
  | cons name names ih =>
      rw [List.flatMap_cons, ih, List.count_cons]
      by_cases hname : name = piece
      · rw [if_pos hname, if_pos (by simpa using hname), List.replicate_succ]
        rfl
      · rw [if_neg hname, if_neg (by simpa using hname)]
        rfl

theorem flatten_replicate_mul (m n : Nat) (found : List Path) :
    (List.replicate m (List.replicate n found).flatten).flatten =
      (List.replicate (m * n) found).flatten := by
  induction m with
  | zero => simp
  | succ m ih =>
      rw [List.replicate_succ, List.flatten_cons, ih, ← List.flatten_append,
        List.replicate_append_replicate, Nat.succ_mul, Nat.add_comm]

section Named

variable {t : FileTree} (hnamed : ∀ l, (t.get? l).isSome → ∀ n ∈ l, isEntryName n = true)
include hnamed

theorem isFileName_of_mem_namesIn (folder : Path) (name : String) (h : name ∈ namesIn t folder) :
    IsFileName name := by
  rw [namesIn] at h
  split at h
  · cases hlist : t.list folder with
    | error e => simp [hlist, Except.toOption] at h
    | ok names =>
        obtain ⟨l, rfl⟩ := list_ok t folder names hlist
        have hmem : name ∈ t.children l := by simpa [hlist, Except.toOption] using h
        exact FileTree.isFileName_of_isEntryName
          (hnamed _ ((FileTree.mem_children t l name).mp hmem) name (by simp))
  · simp at h

/-- What is listed at some depth are proper names, one for each level. -/
theorem mem_namesAt_names (n : Nat) (folder : Path) (names : List String)
    (h : names ∈ namesAt t n folder) : names.length = n ∧ ∀ s ∈ names, IsFileName s := by
  induction n generalizing folder names with
  | zero =>
      rw [namesAt, List.mem_singleton] at h
      rw [h]
      simp
  | succ n ih =>
      rw [namesAt, List.mem_flatMap] at h
      obtain ⟨name, hname, hrest⟩ := h
      obtain ⟨rest, hmem, rfl⟩ := List.mem_map.mp hrest
      obtain ⟨hlength, hnames⟩ := ih _ rest hmem
      refine ⟨by simp [hlength], ?_⟩
      intro s hs
      rcases List.mem_cons.mp hs with rfl | hs
      · exact isFileName_of_mem_namesIn hnamed folder s hname
      · exact hnames s hs

/-- A step without two stars, tried on the names of a folder. -/
theorem below_listed (fuel : Nat) (step : Step) (steps : List Step) (folder : Path)
    (hliteral : step.literal? = none) (hrecursive : step.isRecursive = false)
    (hspecial : step.tokens.head? = some (.char '.') → ["..", "."].filter step.fits = []) :
    below t false (fuel + 2) (step :: steps) folder =
      (namesIn t folder).flatMap fun name =>
        if step.fits name then reached t false fuel steps (inFolder folder name) else [] := by
  rw [below]
  simp only [hliteral]
  rw [namesIn]
  cases hfolder : t.isFolder folder with
  | false => rfl
  | true =>
      simp only [Bool.not_true, Bool.false_eq_true, if_false, if_true]
      cases hlist : t.list folder with
      | error e => simp [Except.toOption]
      | ok names =>
          have hspecials : (if step.tokens.head? == some (.char '.') then
              ["..", "."].filter step.fits else []) = [] := by
            split
            · next h => exact hspecial (beq_iff_eq.mp h)
            · rfl
          simp only [hspecials, List.flatMap_nil, List.nil_append, Except.toOption,
            Option.getD_some]
          obtain ⟨l, rfl⟩ := list_ok t folder names hlist
          apply List.flatMap_congr
          intro name hname
          have hfile : IsFileName name := FileTree.isFileName_of_isEntryName
            (hnamed _ ((FileTree.mem_children t l name).mp hname) name (by simp))
          rw [tried]
          simp only [hrecursive, Bool.false_eq_true, if_false,
            fileName?_inFolder folder name hfile, Option.any_some]

/-- What stars list. -/
theorem reached_stars (n fuel : Nat) (folder : Path) (hfuel : 3 * n ≤ fuel) :
    reached t false fuel (List.replicate n Step.star) folder =
      (namesAt t n folder).map (descend folder) := by
  induction n generalizing fuel folder with
  | zero =>
      rw [List.replicate_zero, reached]
      rfl
  | succ n ih =>
      obtain ⟨fuel, rfl⟩ : ∃ k, fuel = k + 3 := ⟨fuel - 3, by omega⟩
      rw [List.replicate_succ, reached_cons,
        below_listed hnamed fuel Step.star _ folder rfl rfl (by simp [Step.star]), namesAt,
        List.map_flatMap]
      apply List.flatMap_congr
      intro name _
      rw [if_pos (fits_star name), ih fuel (inFolder folder name) (by omega), List.map_map]
      rfl

/-- What the pieces of a path and stars list. -/
theorem reached_escaped (pieces : List String) (n fuel : Nat) (folder : Path)
    (hfuel : 3 * (pieces.length + n) ≤ fuel) :
    reached t false fuel (pieces.map Step.escaped ++ List.replicate n Step.star) folder =
      (List.replicate (ways t folder pieces)
        ((namesAt t n (descend folder pieces)).map (descend (descend folder pieces)))).flatten := by
  induction pieces generalizing fuel folder with
  | nil =>
      rw [List.map_nil, List.nil_append, reached_stars hnamed n fuel folder (by simpa using hfuel)]
      simp [ways, descend]
  | cons piece pieces ih =>
      simp only [List.length_cons] at hfuel
      obtain ⟨fuel, rfl⟩ : ∃ k, fuel = k + 3 := ⟨fuel - 3, by omega⟩
      rw [List.map_cons, List.cons_append, reached_cons, ways, waysOf]
      -- A piece without brackets is looked up, and one with them is searched for.
      cases hliteral : (Step.escaped piece).literal? with
      | some name =>
          have hname := literal?_escaped piece name hliteral
          subst hname
          rw [below]
          simp only [hliteral]
          split
          · rw [Nat.one_mul]
            exact ih (fuel + 1) (inFolder folder name) (by omega)
          · rw [Nat.zero_mul]
            rfl
      | none =>
          have hspecial : (Step.escaped piece).tokens.head? = some (.char '.') →
              ["..", "."].filter (Step.escaped piece).fits = [] := by
            intro _
            rw [List.filter_eq_nil_iff]
            intro special hmem hfits
            rw [fits_escaped] at hfits
            rw [← hfits] at hliteral
            rcases List.mem_cons.mp hmem with rfl | hmem
            · exact absurd hliteral (by decide)
            · rw [List.mem_singleton.mp hmem] at hliteral
              exact absurd hliteral (by decide)
          rw [below_listed hnamed fuel _ _ folder hliteral (isRecursive_escaped piece) hspecial]
          have hsingle : ∀ name, (if (Step.escaped piece).fits name then
              reached t false fuel (pieces.map Step.escaped ++ List.replicate n Step.star)
                (inFolder folder name) else []) =
              if name = piece then
                reached t false fuel (pieces.map Step.escaped ++ List.replicate n Step.star)
                  (inFolder folder piece) else [] := by
            intro name
            by_cases hname : name = piece
            · rw [if_pos ((fits_escaped piece name).mpr hname), if_pos hname, hname]
            · rw [if_neg (fun h => hname ((fits_escaped piece name).mp h)), if_neg hname]
          simp only [hsingle]
          rw [flatMap_single, ih fuel (inFolder folder piece) (by omega),
            flatten_replicate_mul]
          rfl

/-- What is found with an escaped path and stars, in any tree. -/
theorem find_escape (p : Path) (hp : p.text ≠ "") (n : Nat) :
    find t (escape p.text ++ String.ofList (stars (n + 1))) =
      .ok (List.replicate (ways t (startOf p) (piecesBehind p))
        ((namesAt t (n + 1) (spelled p)).map (descend (spelled p)))).flatten := by
  rw [find, search_escape p hp n]
  simp only [bind, Except.bind, pure, Except.pure, Search.find]
  congr 1
  -- The fuel covers three rounds for each step.
  have hsteps : (piecesBehind p).map Step.escaped ++ List.replicate (n + 1) Step.star ≠ [] := by
    simp
  obtain ⟨step, steps, heq⟩ := List.exists_cons_of_ne_nil hsteps
  have hreached := reached_escaped hnamed (piecesBehind p) (n + 1)
    (3 * (maxPathSize + ((piecesBehind p).map Step.escaped ++
      List.replicate (n + 1) Step.star).length + 2) + 1) (startOf p)
    (by simp only [List.length_append, List.length_map, List.length_replicate]; omega)
  rw [heq, reached_cons] at hreached
  rw [heq, hreached]
  rfl

/-- Whatever is found below a path is spelled as the search spells the path,
    with proper names behind it. -/
theorem exists_of_mem_find (p : Path) (hp : p.text ≠ "") (n : Nat) (paths : List Path)
    (hfind : find t (escape p.text ++ String.ofList (stars (n + 1))) = .ok paths) (q : Path)
    (hq : q ∈ paths) :
    ∃ names ∈ namesAt t (n + 1) (spelled p), q = descend (spelled p) names := by
  rw [find_escape hnamed p hp n, Except.ok.injEq] at hfind
  rw [← hfind, List.mem_flatten] at hq
  obtain ⟨found, hfound, hq⟩ := hq
  rw [List.eq_of_mem_replicate hfound, List.mem_map] at hq
  obtain ⟨names, hnames, rfl⟩ := hq
  exact ⟨names, hnames, rfl⟩

end Named

section Orderly

variable {t : FileTree} (ht : t.IsOrderly)

/-- The names in a folder are those at the location it leads to. -/
theorem namesIn_of_locate (folder : Path) (l : Location) (hlocate : t.locate true folder = .ok l)
    (hl : t.get? l = some .folder) : namesIn t folder = t.children l := by
  have hlist : t.list folder = .ok (t.children l) := by
    simp only [FileTree.list, hlocate, bind, Except.bind, hl]
    rfl
  rw [namesIn, if_pos (FileTree.isFolder_of_list t folder _ hlist), hlist]
  rfl

/-- A folder in a folder is among the names there. -/
theorem mem_namesIn_of_isFolder (folder : Path) (piece : String) (hpiece : IsFileName piece)
    (hfolder : t.isFolder folder = true) (hnext : t.isFolder (inFolder folder piece) = true) :
    piece ∈ namesIn t folder := by
  obtain ⟨l, hlocated⟩ := FileTree.exists_of_isFolder t folder hfolder
  obtain ⟨-, -, hwalks, -⟩ := (FileTree.locate_folder_iff folder l).mp hlocated
  obtain ⟨-, -, next, hwalk, -⟩ := (FileTree.isFolder_iff_walksTo _).mp hnext
  rw [namesIn_of_locate folder l hlocated.1 hlocated.2, FileTree.mem_children]
  rcases inFolder_cases folder piece hpiece.noSlash with heq | ⟨rfl, heq⟩
  · rw [heq, FileTree.origin, Path.isAbsolute_join folder piece hpiece.noSlash, ← FileTree.origin,
      Path.steps_join_name folder piece hpiece] at hwalk
    -- The walk to the next folder comes by this one and looks the piece up there.
    obtain ⟨mid, k, hfront, -, hback⟩ := hwalk.exists_mid (List.cons_ne_nil _ _)
    rw [← FileTree.walk_eq_ok_iff] at hwalks hfront
    cases hwalks.symm.trans hfront
    exact hback.isSome_of_name hpiece.ne_dot hpiece.ne_dots
  · -- The dot of the working folder is left out of the walk to the piece.
    rw [heq, FileTree.origin, Path.isAbsolute_join ⟨""⟩ piece hpiece.noSlash,
      Path.steps_join_name ⟨""⟩ piece hpiece] at hwalk
    have hl : l = t.workingFolder := by
      rw [← FileTree.walk_eq_ok_iff] at hwalks
      have hdot : t.walk true maxLinks t.workingFolder ["."] = .ok (.found l) := hwalks
      by_cases hwork : t.get? t.workingFolder = some .folder
      · rw [FileTree.walk_dot hwork, FileTree.walk_nil] at hdot
        cases hdot
        rfl
      · rw [FileTree.walk_cons_of_ne t _ _ _ _ _ hwork] at hdot
        cases hdot
    rw [hl]
    exact FileTree.WalksTo.isSome_of_name hpiece.ne_dot hpiece.ne_dots hwalk

/-- On the way to a folder there are folders. -/
theorem isFolder_of_extend (folder : Path) (hfolder : folder.Undotted) (pieces : List String)
    (hpieces : ∀ s ∈ pieces, '/' ∉ s.toList) (h : t.isFolder (folder.extend pieces) = true) :
    t.isFolder folder = true := by
  induction pieces generalizing folder with
  | nil => exact h
  | cons piece pieces ih =>
      have hslash := hpieces piece List.mem_cons_self
      have hnext := ih _ (hfolder.join piece hslash)
        (fun s hs => hpieces s (List.mem_cons_of_mem _ hs)) h
      exact FileTree.isFolder_of_join folder hfolder.ne_empty piece hslash hnext

include ht

/-- A piece that leads to a folder can be passed in one way. -/
theorem waysOf_eq_one (folder : Path) (piece : String) (hslash : '/' ∉ piece.toList)
    (hfolder : t.isFolder folder = true) (hnext : t.isFolder (inFolder folder piece) = true) :
    waysOf t folder piece = 1 := by
  rw [waysOf]
  cases hliteral : (Step.escaped piece).literal? with
  | some name =>
      have hpresent : t.isPresent (inFolder folder piece) = true := by
        obtain ⟨l, hlocate, hl⟩ := FileTree.exists_of_isFolder t _ hnext
        simp [FileTree.isPresent, FileTree.exists?, FileTree.entryAt?, hlocate, hl]
      simp only
      rw [if_pos]
      rw [hfolder, hpresent]
      cases piece == "." || piece == ".." <;> rfl
  | none =>
      -- A piece with special characters is a proper name, and is listed once.
      have hne : ∀ text, (Step.escaped text).literal? = some text → piece ≠ text := by
        rintro text htext rfl
        rw [htext] at hliteral
        cases hliteral
      have hpiece : IsFileName piece :=
        ⟨hslash, hne "" (by decide), hne "." (by decide), hne ".." (by decide)⟩
      exact List.count_eq_one_of_mem (nodup_namesIn t ht.nodup folder)
        (mem_namesIn_of_isFolder folder piece hpiece hfolder hnext)

theorem ways_extend (folder : Path) (hfolder : folder.Undotted) (pieces : List String)
    (hpieces : ∀ s ∈ pieces, '/' ∉ s.toList) (h : t.isFolder (folder.extend pieces) = true) :
    ways t folder pieces = 1 := by
  induction pieces generalizing folder with
  | nil => rfl
  | cons piece pieces ih =>
      have hslash := hpieces piece List.mem_cons_self
      have htail : ∀ s ∈ pieces, '/' ∉ s.toList := fun s hs =>
        hpieces s (List.mem_cons_of_mem _ hs)
      have hjoin := inFolder_of_ne folder piece hfolder.text_ne_dot
      have hnext := isFolder_of_extend _ (hfolder.join piece hslash) pieces htail h
      rw [ways, waysOf_eq_one ht folder piece hslash
        (isFolder_of_extend folder hfolder _ hpieces h) (by rw [hjoin]; exact hnext), hjoin,
        ih _ (hfolder.join piece hslash) htail h]

/-- The way to a folder can be gone in one way. -/
theorem ways_eq_one (p : Path) (hp : p.Undotted) (h : t.isFolder (spelled p) = true) :
    ways t (startOf p) (piecesBehind p) = 1 := by
  have hpieces := noSlash_of_mem_piecesBehind p
  rw [spelled] at h
  cases habsolute : p.isAbsolute with
  | true =>
      have hstart : startOf p = ⟨"/"⟩ := by rw [startOf, habsolute, if_pos rfl]
      have hslash : (Path.mk "/").Undotted := Path.undotted_of_isAbsolute _ (by decide)
      rw [hstart] at h ⊢
      rw [descend_of_undotted _ hslash _ hpieces] at h
      exact ways_extend ht _ hslash _ hpieces h
  | false =>
      -- The search starts at a dot, which it drops with the first piece.
      obtain ⟨first, rest, hsplit, -, -, hslash, hfirst⟩ := hp.pieces habsolute
      have hstart : startOf p = ⟨"."⟩ := by
        rw [startOf, habsolute, if_neg Bool.false_ne_true]
      have hbehind : piecesBehind p = first :: rest := by
        rw [piecesBehind, habsolute, if_neg Bool.false_ne_true, hsplit]
      rw [hbehind] at hpieces
      have htail : ∀ s ∈ rest, '/' ∉ s.toList := fun s hs =>
        hpieces s (List.mem_cons_of_mem _ hs)
      have hinFolder : inFolder ⟨"."⟩ first = ⟨first⟩ := rfl
      have hcurrent : t.isFolder ⟨"."⟩ = true := by
        rw [FileTree.isFolder_iff_walksTo]
        exact ⟨by decide, by decide, t.workingFolder, .stay ht.working (.stop _ _), ht.working⟩
      rw [hstart, hbehind] at h ⊢
      have hextend : t.isFolder ((Path.mk first).extend rest) = true := by
        rw [← descend_of_undotted _ hfirst _ htail]
        exact h
      rw [ways, hinFolder, ways_extend ht _ hfirst rest htail hextend,
        waysOf_eq_one ht ⟨"."⟩ first hslash hcurrent
          (isFolder_of_extend _ hfirst rest htail hextend)]

/-- What is found in an orderly tree with an escaped path and stars. -/
theorem find_eq (p : Path) (hp : p.Undotted) (n : Nat) :
    find t (escape p.text ++ String.ofList (stars (n + 1))) =
      .ok ((namesAt t (n + 1) (spelled p)).map p.tidy.extend) := by
  have hmap : (namesAt t (n + 1) (spelled p)).map (descend (spelled p)) =
      (namesAt t (n + 1) (spelled p)).map p.tidy.extend := by
    apply List.map_congr_left
    intro names hnames
    obtain ⟨hlength, hfile⟩ := mem_namesAt_names ht.named _ _ _ hnames
    refine descend_spelled p hp names ?_ fun s hs => (hfile s hs).noSlash
    rintro rfl
    simp at hlength
  rw [find_escape ht.named p hp.ne_empty n, hmap]
  cases hfolder : t.isFolder (spelled p) with
  | true =>
      rw [ways_eq_one ht p hp hfolder]
      simp
  | false =>
      -- However many ways there are, they lead to nothing.
      have hnone : namesAt t (n + 1) (spelled p) = [] := by
        rw [namesAt, namesIn, hfolder]
        rfl
      rw [hnone]
      simp

omit ht in
/-- A slash at the end makes no difference to the folder that a path leads to,
    unless it makes the path too long. -/
theorem locate_join_empty (folder : Path) (hfolder : folder.Undotted)
    (hsize : (folder.join "").text.utf8ByteSize ≤ maxPathSize) (l : Location) :
    t.locate true (folder.join "") = .ok l ∧ t.get? l = some .folder ↔
      t.locate true folder = .ok l ∧ t.get? l = some .folder := by
  have hsteps : (folder.join "").steps = folder.steps := by
    rw [Path.steps_join folder "" (by simp)]
    simp
  have horigin : t.origin (folder.join "") = t.origin folder := by
    rw [FileTree.origin, Path.isAbsolute_join folder "" (by simp), ← FileTree.origin]
  have hne := (hfolder.join "" (by simp)).ne_empty
  have hle := Nat.le_trans (Path.size_le_join folder "" (by simp)) hsize
  rw [FileTree.locate_folder_iff, FileTree.locate_folder_iff, hsteps, horigin]
  exact ⟨fun h => ⟨hfolder.ne_empty, hle, h.2.2⟩, fun h => ⟨hne, hsize, h.2.2⟩⟩

/-- Nor does it for what is two and more levels below. A path that is too long
    with the slash is too long with a name behind it. -/
theorem namesAt_join_empty (folder : Path) (hfolder : folder.Undotted) (n : Nat) :
    namesAt t (n + 2) (folder.join "") = namesAt t (n + 2) folder := by
  have hnext : ∀ name ∈ namesIn t folder,
      inFolder (folder.join "") name = inFolder folder name := by
    intro name hname
    have hfile := isFileName_of_mem_namesIn ht.named folder name hname
    rw [inFolder_of_ne _ _ hfolder.text_ne_dot,
      inFolder_of_ne _ _ (hfolder.join "" (by simp)).text_ne_dot,
      Path.join_empty_join folder name hfile.noSlash]
  cases h : t.isFolder (folder.join "") with
  | true =>
      obtain ⟨l, hlocated⟩ := (FileTree.isFolder_iff_locate _).mp h
      have hsize := ((FileTree.locate_folder_iff _ l).mp hlocated).2.1
      have hlocated' := (locate_join_empty folder hfolder hsize l).mp hlocated
      rw [namesAt, namesAt, namesIn_of_locate _ l hlocated.1 hlocated.2,
        ← namesIn_of_locate folder l hlocated'.1 hlocated'.2]
      exact List.flatMap_congr fun name hname => by rw [hnext name hname]
  | false =>
      have hnone : namesAt t (n + 2) (folder.join "") = [] := by
        rw [namesAt, namesIn, h]
        rfl
      -- A folder below could be reached only if the slash made no difference.
      rw [hnone, namesAt, eq_comm, List.flatMap_eq_nil_iff]
      intro name hname
      have hfile := isFileName_of_mem_namesIn ht.named folder name hname
      have hdeep : t.isFolder (inFolder folder name) = false := by
        rw [← Bool.not_eq_true]
        intro hdeep
        rw [inFolder_of_ne _ _ hfolder.text_ne_dot] at hdeep
        have hsize : (folder.join "").text.utf8ByteSize ≤ maxPathSize := by
          have hlong := ((FileTree.isFolder_iff_walksTo _).mp hdeep).2.1
          rw [Path.size_join folder name hfile.noSlash hfolder.ne_empty] at hlong
          rw [Path.size_join folder "" (by simp) hfolder.ne_empty, String.utf8ByteSize_empty]
          omega
        have hshort := FileTree.isFolder_of_join folder hfolder.ne_empty name hfile.noSlash hdeep
        have hslash : t.isFolder (folder.join "") = true := by
          obtain ⟨l, hlocated⟩ := (FileTree.isFolder_iff_locate folder).mp hshort
          exact (FileTree.isFolder_iff_locate _).mpr
            ⟨l, (locate_join_empty folder hfolder hsize l).mpr hlocated⟩
        rw [hslash] at h
        cases h
      rw [namesAt, namesIn, hdeep]
      rfl

/-- What is two and more levels below a path is the same however many slashes
    the path is spelled with. -/
theorem namesAt_spelled (p : Path) (hp : p.Undotted) (n : Nat) :
    namesAt t (n + 2) (spelled p) = namesAt t (n + 2) p.tidy := by
  rcases spelled_eq_tidy p hp with heq | heq
  · rw [heq]
  · rw [heq, namesAt_join_empty ht p.tidy hp.tidy n]

end Orderly

section Plain

variable {t : FileTree} (ht : t.IsPlain)
include ht

theorem namesIn_eq (folder : Path) (hdots : ".." ∉ folder.steps) :
    namesIn t folder = if t.isFolder folder then t.children (t.location folder) else [] := by
  rw [namesIn]
  cases hfolder : t.isFolder folder with
  | false => rfl
  | true =>
      rw [if_pos rfl, FileTree.list_eq_ok ht folder hdots hfolder]
      rfl

/-- Every entry whose path is not too long is listed. -/
theorem mem_namesAt (n : Nat) (folder : Path) (hfolder : folder.Undotted)
    (hdots : ".." ∉ folder.steps) (names : List String) (hlength : names.length = n)
    (hsome : (t.get? (t.location folder ++ names)).isSome)
    (hsize : (folder.extend names).text.utf8ByteSize ≤ maxPathSize) :
    names ∈ namesAt t n folder := by
  induction n generalizing folder names with
  | zero =>
      rw [List.length_eq_zero_iff.mp hlength]
      exact List.mem_singleton_self _
  | succ n ih =>
      obtain ⟨name, rest, rfl⟩ := List.exists_cons_of_length_eq_add_one hlength
      have hnames : ∀ s ∈ name :: rest, IsFileName s := fun s hs =>
        FileTree.isFileName_of_isEntryName (ht.named _ hsome s (List.mem_append_right _ hs))
      have hfile := hnames name List.mem_cons_self
      have hlocation : t.location (folder.join name) = t.location folder ++ [name] := by
        rw [FileTree.location_join t folder name hfile.noSlash]
        simp [hfile.ne_dot, hfile.ne_empty]
      have hisFolder : t.isFolder folder = true := by
        rw [FileTree.isFolder_iff_location ht folder hdots]
        exact ⟨hfolder.ne_empty, Nat.le_trans (Path.size_le_extend folder _
          fun s hs => (hnames s hs).noSlash) hsize,
          ht.folder_of_prefix _ _ (List.cons_ne_nil _ _) hsome⟩
      rw [List.append_cons] at hsome
      have hchild : name ∈ namesIn t folder := by
        rw [namesIn_eq ht folder hdots, if_pos hisFolder, FileTree.mem_children]
        exact ht.isSome_of_prefix _ rest hsome
      rw [namesAt, List.mem_flatMap]
      refine ⟨name, hchild, List.mem_map_of_mem ?_⟩
      rw [inFolder_of_ne _ _ hfolder.text_ne_dot]
      exact ih _ (hfolder.join name hfile.noSlash)
        (folder.dots_join name hfile.noSlash hfile.ne_dots hdots) rest (by simpa using hlength)
        (by rwa [hlocation]) hsize

/-- A piece that leads to a folder can be passed in the same way in every tree
    with the same folders. -/
theorem waysOf_sameFolders {t' : FileTree} (ht' : t'.IsPlain) (h : FileTree.SameFolders t t')
    (folder : Path) (piece : String) (hslash : '/' ∉ piece.toList) (hpiece : piece ≠ "..")
    (hdots : ".." ∉ folder.steps)
    (hnext : t.get? (t.location (inFolder folder piece)) = some .folder) :
    waysOf t' folder piece = waysOf t folder piece := by
  have hfolder := FileTree.isFolder_sameFolders ht ht' h folder
  unfold waysOf
  cases hliteral : (Step.escaped piece).literal? with
  | some name =>
      -- What is at the place of the next folder is a folder in both trees.
      have hentry : ∀ follow, t'.entryAt? follow (inFolder folder piece) =
          t.entryAt? follow (inFolder folder piece) := by
        intro follow
        rw [FileTree.entryAt?_eq ht', FileTree.entryAt?_eq ht,
          FileTree.place?_of_sameFolders ht ht' h]
        cases hplace : t.place? (inFolder folder piece) with
        | none => rfl
        | some l =>
            have hl := FileTree.place?_eq_location ht _
              (dots_inFolder folder piece hslash hpiece hdots) l hplace
            rw [Option.bind_some, Option.bind_some, hl, hnext, (h.folder_iff _).mpr hnext]
      have hpresent :
          t'.isPresent (inFolder folder piece) = t.isPresent (inFolder folder piece) := by
        rw [FileTree.isPresent, FileTree.isPresent, FileTree.exists?, FileTree.exists?, hentry,
          hentry]
      simp only
      rw [hfolder, hpresent]
  | none =>
      have hname : piece ≠ "" ∧ piece ≠ "." := by
        constructor
        · rintro rfl
          exact absurd hliteral (by decide)
        · rintro rfl
          exact absurd hliteral (by decide)
      have hlocation : t.location (inFolder folder piece) = t.location folder ++ [piece] := by
        rw [location_inFolder t folder piece hslash]
        simp [hname.1, hname.2]
      rw [hlocation] at hnext
      have hwork : t'.location folder = t.location folder := by
        rw [FileTree.location, FileTree.location, FileTree.origin, FileTree.origin, h.working]
      simp only
      rw [namesIn_eq ht folder hdots, namesIn_eq ht' folder hdots, hfolder, hwork]
      split
      · rw [List.count_eq_one_of_mem (FileTree.nodup_children t ht.nodup _)
            ((FileTree.mem_children t _ piece).mpr (by rw [hnext]; rfl)),
          List.count_eq_one_of_mem (FileTree.nodup_children t' ht'.nodup _)
            ((FileTree.mem_children t' _ piece).mpr (by rw [(h.folder_iff _).mpr hnext]; rfl))]
      · rfl

theorem ways_descend_sameFolders {t' : FileTree} (ht' : t'.IsPlain)
    (h : FileTree.SameFolders t t') (folder : Path) (pieces : List String)
    (hpieces : ∀ s ∈ pieces, '/' ∉ s.toList ∧ s ≠ "..") (hdots : ".." ∉ folder.steps)
    (hend : t.get? (t.location (descend folder pieces)) = some .folder) :
    ways t' folder pieces = ways t folder pieces := by
  induction pieces generalizing folder with
  | nil => rfl
  | cons piece pieces ih =>
      obtain ⟨hslash, hpiece⟩ := hpieces piece List.mem_cons_self
      have htail : ∀ s ∈ pieces, '/' ∉ s.toList ∧ s ≠ ".." := fun s hs =>
        hpieces s (List.mem_cons_of_mem _ hs)
      have hnext : t.get? (t.location (inFolder folder piece)) = some .folder := by
        have hdescend := location_descend t (inFolder folder piece) pieces
          fun s hs => (htail s hs).1
        rw [descend, List.foldl_cons] at hend
        rw [descend] at hdescend
        rw [hdescend] at hend
        by_cases hnil : pieces.filter (fun n => n != "." && n != "") = []
        · rwa [hnil, List.append_nil] at hend
        · exact ht.folder_of_prefix _ _ hnil (by rw [hend]; rfl)
      rw [ways, ways, waysOf_sameFolders ht ht' h folder piece hslash hpiece hdots hnext,
        ih _ htail (dots_inFolder folder piece hslash hpiece hdots) hend]

/-- The way to a folder can be gone in the same way in every tree with the same
    folders. -/
theorem ways_sameFolders {t' : FileTree} (ht' : t'.IsPlain) (h : FileTree.SameFolders t t')
    (p : Path) (hdots : ".." ∉ p.steps) (hp : t.get? (t.location p) = some .folder) :
    ways t' (startOf p) (piecesBehind p) = ways t (startOf p) (piecesBehind p) := by
  refine ways_descend_sameFolders ht ht' h _ _ ?_ ?_ ?_
  · exact fun s hs => ⟨noSlash_of_mem_piecesBehind p s hs, ne_dots_of_mem_piecesBehind p hdots s hs⟩
  · rw [startOf]
    split <;> decide
  · have hlocation := location_spelled t p
    rw [spelled] at hlocation
    rwa [hlocation]

end Plain

end Glob

end SchemaRename
