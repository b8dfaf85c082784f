import SchemaRename.Proofs.Cleanup.Tied
import SchemaRename.Proofs.FileTree.Removing
import SchemaRename.Proofs.Glob.Listing

/-!
# A Cleanup Removes What Is Tied

What is gone after a cleanup, and that nothing else is.

A sweep starts at some entries and goes through everything below them. For
each start it either removes the entry, or looks into it, or keeps it, and
none of these touches what is below another start. So the sweep of a list is
the sweeps of its members one after the other, and the sweep of a folder is
the sweep of the entries it lists.

The tree changes between the steps, and an entry may be gone when its turn
comes. What is tied in a later tree was tied before, because entries are only
taken away, and what was tied before is tied later or gone already. That is
all that is needed to put the steps together.

An entry whose path is too long cannot be reached. It stays, unless a folder
above it goes.

## Main definitions

* `Tied`: An entry below a project folder is tied to a prefix.
* `Site`: A project folder with a path of plain names.
* `Cleaned`: A tree without what was tied below some starts.
* `Sweeps`: A sweep has cleaned a tree and reports what it has removed.

## Theorems

* `Sweeps.cons`, `Sweeps.of_children`: How sweeps are put together.
* `sweeps_entries`, `sweeps_folder`: Sweeps of a list and of a folder.
* `sweeps_deleteDeprecated`: A cleanup is a sweep.
* `deleteDeprecated_exact`: What a cleanup does.
-/

namespace SchemaRename

open SchemaRename.FileTree

/-- The entry at some names below a folder is tied to a prefix: the names hold
    it, or the entry is a file that is tied by its content. -/
def Tied (t : FileTree) (base : Location) (deprecated : String) (below : List String) : Prop :=
  Contains ("/".intercalate below) deprecated ∨
    ∃ name content, below.getLast? = some name ∧
      t.get? (base ++ below) = some (.file (.text content)) ∧ ContentTied name content deprecated

/-- What is below a folder that is tied by its names is tied too. -/
theorem contains_of_isPrefix {front below : List String} {deprecated : String}
    (h : Contains ("/".intercalate front) deprecated) (hfront : front <+: below) :
    Contains ("/".intercalate below) deprecated := by
  obtain ⟨rest, rfl⟩ := hfront
  by_cases hnil : front = []
  · subst hnil
    have hempty : deprecated.toList = [] := by
      simpa [Contains, String.toList_intercalate] using h
    rw [Contains, hempty]
    exact List.nil_infix
  · by_cases hrest : rest = []
    · rwa [hrest, List.append_nil]
    · rw [String.intercalate_append_of_ne_nil hnil hrest, String.append_assoc]
      exact h.append _

/-- The path of what is below an entry is no shorter. -/
theorem size_le_of_isSome {t : FileTree} (ht : t.IsOrderly) (p : Path) (base : Location)
    (start rest : List String) (hsome : (t.get? (base ++ (start ++ rest))).isSome) :
    (p.extend start).text.utf8ByteSize ≤ (p.extend (start ++ rest)).text.utf8ByteSize := by
  rw [Path.extend_append]
  refine Path.size_le_extend _ rest fun n hn => ?_
  exact (isFileName_of_isEntryName (ht.named _ hsome n (by simp [hn]))).noSlash

/-- A project folder with a relative path of plain names, and its location in
    trees with a working folder. -/
structure Site (root : Path) (work base : Location) : Prop where
  undotted : root.Undotted
  relative : root.isAbsolute = false
  dots : ".." ∉ root.steps
  base_eq : base = work ++ root.steps.filter (· != ".")

section Site

variable {root : Path} {work base : Location} (hsite : Site root work base)
  {t : FileTree} (ht : t.IsPlain) (hwork : t.workingFolder = work)
  (below : List String) (hbelow : ∀ n ∈ below, IsFileName n)
include hsite hbelow

theorem Site.dots_extend : ".." ∉ (root.tidy.extend below).steps := by
  rw [Path.steps_tidy_extend root below hbelow, List.mem_append, not_or]
  exact ⟨hsite.dots, fun hmem => (hbelow _ hmem).ne_dots rfl⟩

include hwork in
theorem Site.location_extend : t.location (root.tidy.extend below) = base ++ below := by
  rw [location, Path.steps_tidy_extend root below hbelow, List.filter_append, origin,
    Path.isAbsolute_extend _ _ fun s hs => (hbelow s hs).noSlash, Path.isAbsolute_tidy,
    hsite.relative, if_neg Bool.false_ne_true, hwork, hsite.base_eq, List.append_assoc]
  rw [List.filter_eq_self.mpr fun s (hs : s ∈ below) => by simpa using (hbelow s hs).ne_dot]

/-- What is searched of a path below the project folder are the names. -/
theorem Site.searchedPart_extend :
    searchedPart root (root.tidy.extend below) = "/".intercalate below := by
  rw [searchedPart, Path.relativeTo?, Path.components_extend _ _ hbelow,
    Path.components_tidy root hsite.undotted, Path.stepsAfter?_append, Option.map_some,
    Option.getD_some, Path.text_ofComponents_names below hbelow]

include ht hwork

theorem Site.isFolder_iff :
    t.isFolder (root.tidy.extend below) = true ↔
      (root.tidy.extend below).text.utf8ByteSize ≤ maxPathSize ∧
        t.get? (base ++ below) = some .folder := by
  rw [isFolder_iff_location ht _ (hsite.dots_extend below hbelow),
    hsite.location_extend hwork below hbelow]
  exact and_iff_right (Path.Undotted.extend hsite.undotted.tidy below
    fun s hs => (hbelow s hs).noSlash).ne_empty

variable (hne : below ≠ [])
include hne

/-- What is read at a path below the project folder. -/
theorem Site.readText_iff (content : String) :
    t.readText (root.tidy.extend below) = .ok content ↔
      (root.tidy.extend below).text.utf8ByteSize ≤ maxPathSize ∧
        t.get? (base ++ below) = some (.file (.text content)) := by
  obtain ⟨front, name, -, hname, hsteps, hslash, -⟩ :=
    Path.exists_last_extend root.tidy below hbelow hne
  rw [readText_iff_location ht _ _ name hsteps hname hslash (hsite.dots_extend below hbelow),
    hsite.location_extend hwork below hbelow]

/-- A path below the project folder leads somewhere if it is not too long and
    there is something. -/
theorem Site.exists?_iff :
    t.exists? (root.tidy.extend below) = true ↔
      (root.tidy.extend below).text.utf8ByteSize ≤ maxPathSize ∧
        (t.get? (base ++ below)).isSome := by
  obtain ⟨front, name, -, hname, hsteps, hslash, -⟩ :=
    Path.exists_last_extend root.tidy below hbelow hne
  have hdots := hsite.dots_extend below hbelow
  have hlocation := hsite.location_extend hwork below hbelow
  rw [exists?, entryAt?_eq ht]
  constructor
  · intro hsome
    cases hplace : t.place? (root.tidy.extend below) with
    | none =>
        rw [hplace] at hsome
        cases hsome
    | some l =>
        have hsize := ((place?_eq_some_iff_walk t _ l).mp hplace).2.1
        rw [hplace, Option.bind_some, place?_eq_location ht _ hdots l hplace, hlocation] at hsome
        exact ⟨hsize, hsome⟩
  · rintro ⟨hsize, hsome⟩
    rw [place?_of_isSome ht _ _ name hsteps hname hslash hdots hsize (by rwa [hlocation]),
      Option.bind_some, hlocation]
    exact hsome

/-- An entry that is judged tied is tied, and one that is tied is judged so if
    its path is not too long. -/
theorem Site.tied_of_judge (deprecated : String)
    (h : judge t root (root.tidy.extend below) deprecated = .remove) :
    Tied t base deprecated below := by
  obtain ⟨front, name, hfront, -, -, -, hfile⟩ := Path.exists_last_extend root.tidy below hbelow hne
  rw [judge_eq_remove_iff, hsite.searchedPart_extend below hbelow] at h
  rcases h with hpath | ⟨name', content, hname', hread, htied⟩
  · exact Or.inl hpath
  · rw [hfile, Option.some.injEq] at hname'
    subst hname'
    refine Or.inr ⟨name, content, by rw [hfront, List.getLast?_concat], ?_, htied⟩
    exact ((hsite.readText_iff ht hwork below hbelow hne content).mp hread).2

theorem Site.judge_of_tied (deprecated : String) (h : Tied t base deprecated below)
    (hsize : (root.tidy.extend below).text.utf8ByteSize ≤ maxPathSize) :
    judge t root (root.tidy.extend below) deprecated = .remove := by
  obtain ⟨front, name, hfront, -, -, -, hfile⟩ := Path.exists_last_extend root.tidy below hbelow hne
  rw [judge_eq_remove_iff, hsite.searchedPart_extend below hbelow]
  rcases h with hpath | ⟨name', content, hname', hget, htied⟩
  · exact Or.inl hpath
  · rw [hfront, List.getLast?_concat, Option.some.injEq] at hname'
    subst hname'
    exact Or.inr ⟨name, content, hfile,
      (hsite.readText_iff ht hwork below hbelow hne content).mpr ⟨hsize, hget⟩, htied⟩

end Site

/-- A tree without what was tied at some starts or below them. Entries whose
    paths are too long may be left. -/
structure Cleaned (root : Path) (base : Location) (deprecated : String) (t t' : FileTree)
    (starts : List (List String)) : Prop where
  plain : t'.IsPlain
  working : t'.workingFolder = t.workingFolder
  only : ∀ l, t'.get? l = t.get? l ∨ (t'.get? l = none ∧ ∃ start ∈ starts, ∃ below,
    start <+: below ∧ l = base ++ below ∧ Tied t base deprecated below)
  all : ∀ start ∈ starts, ∀ below, start <+: below →
    (root.tidy.extend below).text.utf8ByteSize ≤ maxPathSize → Tied t base deprecated below →
    t'.get? (base ++ below) = none

/-- Names of which neither leads on to the other. -/
def Apart (a b : List String) : Prop :=
  ¬ a <+: b ∧ ¬ b <+: a

theorem Apart.extend {a b a' b' : List String} (h : Apart a b) (ha : a <+: a') (hb : b <+: b') :
    Apart a' b' := by
  constructor
  · intro hle
    rcases List.prefix_or_prefix_of_prefix (ha.trans hle) hb with hab | hba
    · exact h.1 hab
    · exact h.2 hba
  · intro hle
    rcases List.prefix_or_prefix_of_prefix ha (hb.trans hle) with hab | hba
    · exact h.1 hab
    · exact h.2 hba

theorem apart_of_length {a b : List String} (hlength : a.length = b.length) (hne : a ≠ b) :
    Apart a b :=
  ⟨fun h => hne (h.eq_of_length hlength), fun h => hne (h.eq_of_length hlength.symm).symm⟩

/-- A sweep from some starts has cleaned a tree, and reports entries that are
    apart from each other. -/
structure Sweeps (root : Path) (base : Location) (deprecated : String) (t t' : FileTree)
    (report report' : CleanupReport) (starts : List (List String)) : Prop where
  cleaned : Cleaned root base deprecated t t' starts
  removed : ∃ gone : List (List String),
    report'.removed = report.removed ++ gone.map root.tidy.extend ∧ gone.Pairwise Apart ∧
    ∀ g ∈ gone, (∀ n ∈ g, IsFileName n) ∧ ∃ start ∈ starts, start <+: g

section Compose

variable {root : Path} {base : Location} {deprecated : String}

/-- What is tied after some entries have been taken away was tied before. -/
theorem Tied.of_later {t t' : FileTree} {below : List String}
    (h : Tied t' base deprecated below)
    (hless : ∀ l, t'.get? l = t.get? l ∨ t'.get? l = none) : Tied t base deprecated below := by
  rcases h with hpath | ⟨name, content, hname, hget, htied⟩
  · exact Or.inl hpath
  · rcases hless (base ++ below) with hsame | hnone
    · exact Or.inr ⟨name, content, hname, hsame.symm.trans hget, htied⟩
    · rw [hnone] at hget
      cases hget

theorem Cleaned.less {t t' : FileTree} {starts : List (List String)}
    (h : Cleaned root base deprecated t t' starts) (l : Location) :
    t'.get? l = t.get? l ∨ t'.get? l = none := by
  rcases h.only l with hsame | ⟨hnone, -⟩
  · exact Or.inl hsame
  · exact Or.inr hnone

theorem Cleaned.refl {t : FileTree} (ht : t.IsPlain) :
    Cleaned root base deprecated t t [] :=
  ⟨ht, rfl, fun _ => Or.inl rfl, fun start hstart => by simp at hstart⟩

/-- Two sweeps, one after the other. -/
theorem Cleaned.cons {t t₁ t' : FileTree} {start : List String} {starts : List (List String)}
    (hfirst : Cleaned root base deprecated t t₁ [start])
    (hrest : Cleaned root base deprecated t₁ t' starts) :
    Cleaned root base deprecated t t' (start :: starts) := by
  refine ⟨hrest.plain, hrest.working.trans hfirst.working, ?_, ?_⟩
  · intro l
    rcases hrest.only l with hsame | ⟨hnone, s, hs, below, hfront, rfl, htied⟩
    · rcases hfirst.only l with hsame' | ⟨hnone, s, hs, below, hfront, rfl, htied⟩
      · exact Or.inl (hsame.trans hsame')
      · rw [List.mem_singleton] at hs
        subst hs
        exact Or.inr ⟨hsame.trans hnone, s, List.mem_cons_self, below, hfront, rfl, htied⟩
    · exact Or.inr ⟨hnone, s, List.mem_cons_of_mem _ hs, below, hfront, rfl,
        htied.of_later hfirst.less⟩
  · intro s hs below hfront hsize htied
    -- What is gone after the first sweep stays gone.
    have hgone : t₁.get? (base ++ below) = none → t'.get? (base ++ below) = none := by
      intro hnone
      rcases hrest.less (base ++ below) with hsame | hnone'
      · exact hsame.trans hnone
      · exact hnone'
    rcases List.mem_cons.mp hs with rfl | hs
    · exact hgone (hfirst.all s (List.mem_singleton_self s) below hfront hsize htied)
    · rcases hfirst.less (base ++ below) with hsame | hnone
      · -- The entry is still there, with the content that ties it.
        refine hrest.all s hs below hfront hsize ?_
        rcases htied with hpath | ⟨name, content, hname, hget, htied⟩
        · exact Or.inl hpath
        · exact Or.inr ⟨name, content, hname, hsame.trans hget, htied⟩
      · exact hgone hnone

theorem Sweeps.cons {t t₁ t' : FileTree} {report report₁ report' : CleanupReport}
    {start : List String} {starts : List (List String)}
    (hfirst : Sweeps root base deprecated t t₁ report report₁ [start])
    (hrest : Sweeps root base deprecated t₁ t' report₁ report' starts)
    (hapart : ∀ s ∈ starts, Apart start s) :
    Sweeps root base deprecated t t' report report' (start :: starts) := by
  obtain ⟨gone, hgone, hpairwise, hbelow⟩ := hfirst.removed
  obtain ⟨gone', hgone', hpairwise', hbelow'⟩ := hrest.removed
  refine ⟨hfirst.cleaned.cons hrest.cleaned, gone ++ gone', ?_, ?_, ?_⟩
  · rw [hgone', hgone, List.map_append, List.append_assoc]
  · rw [List.pairwise_append]
    refine ⟨hpairwise, hpairwise', ?_⟩
    intro a ha b hb
    obtain ⟨-, s, hs, hsa⟩ := hbelow a ha
    obtain ⟨-, s', hs', hsb⟩ := hbelow' b hb
    rw [List.mem_singleton] at hs
    subst hs
    exact (hapart s' hs').extend hsa hsb
  · intro g hg
    rcases List.mem_append.mp hg with hg | hg
    · obtain ⟨hnames, s, hs, hfront⟩ := hbelow g hg
      rw [List.mem_singleton] at hs
      exact ⟨hnames, s, by rw [hs]; exact List.mem_cons_self, hfront⟩
    · obtain ⟨hnames, s, hs, hfront⟩ := hbelow' g hg
      exact ⟨hnames, s, List.mem_cons_of_mem _ hs, hfront⟩

/-- A report that only counts what it has looked at. -/
theorem Sweeps.of_removed {t t' : FileTree} {report₁ report report' : CleanupReport}
    {starts : List (List String)}
    (h : Sweeps root base deprecated t t' report₁ report' starts)
    (hreport : report₁.removed = report.removed) :
    Sweeps root base deprecated t t' report report' starts :=
  ⟨h.cleaned, by rw [← hreport]; exact h.removed⟩

end Compose

section Sweep

variable {root : Path} {work base : Location} (hsite : Site root work base) (deprecated : String)
include hsite

/-- The sweep of an entry that is removed. -/
theorem sweeps_remove {t : FileTree} (ht : t.IsPlain) (hwork : t.workingFolder = work)
    (start : List String) (hstart : ∀ n ∈ start, IsFileName n) (hne : start ≠ [])
    (hjudge : judge t root (root.tidy.extend start) deprecated = .remove)
    (report : CleanupReport) :
    ∃ report' t', removeEntry .apply (root.tidy.extend start) report t = (report', t') ∧
      Sweeps root base deprecated t t' report report' [start] := by
  obtain ⟨front, name, -, hname, hsteps, hslash, -⟩ :=
    Path.exists_last_extend root.tidy start hstart hne
  have hlocation := hsite.location_extend hwork start hstart
  have htied := hsite.tied_of_judge ht hwork start hstart hne deprecated hjudge
  have hkept : ¬ t.location (root.tidy.extend start) <+: t.workingFolder := by
    rw [hlocation, hwork, hsite.base_eq]
    intro hle
    have hlength := hle.length_le
    have hpos := List.length_pos_iff.mpr hne
    simp only [List.length_append] at hlength
    omega
  -- A folder goes with what is below it; that is tied if the folder is.
  have hfile : ∀ below, start <+: below → (t.get? (base ++ below)).isSome →
      Tied t base deprecated below := by
    rintro below ⟨rest, rfl⟩ hsome
    by_cases hrest : rest = []
    · rwa [hrest, List.append_nil]
    · rcases htied with hpath | ⟨_, content, -, hget, -⟩
      · exact Or.inl (contains_of_isPrefix hpath (List.prefix_append start rest))
      · rw [← List.append_assoc] at hsome
        have hfolder := ht.folder_of_prefix _ rest hrest hsome
        rw [hget] at hfolder
        cases hfolder
  rcases delete_cases ht _ _ name hsteps hname hslash (hsite.dots_extend start hstart) hkept
    ("remove " ++ (root.tidy.extend start).text) with ⟨t', heq, hremoved⟩ | ⟨⟨e, heq⟩, hnone⟩
  · refine ⟨_, t', by simp [removeEntry, WriteMode.writes, heq]; rfl, ⟨hremoved.plain,
      hremoved.working, ?_, ?_⟩, [start], rfl, List.pairwise_singleton _ _, ?_⟩
    · intro l
      by_cases hl : t.location (root.tidy.extend start) <+: l
      · by_cases hsome : (t.get? l).isSome
        · right
          refine ⟨hremoved.gone l hl, start, List.mem_singleton_self start, ?_⟩
          rw [hlocation] at hl
          obtain ⟨rest, rfl⟩ := hl
          rw [List.append_assoc] at hsome ⊢
          exact ⟨start ++ rest, List.prefix_append start rest, rfl,
            hfile _ (List.prefix_append start rest) hsome⟩
        · left
          rw [hremoved.gone l hl, Option.not_isSome_iff_eq_none.mp hsome]
      · exact Or.inl (hremoved.frame l hl)
    · intro s hs below hfront _ _
      rw [List.mem_singleton] at hs
      subst hs
      apply hremoved.gone
      rw [hlocation]
      exact List.prefix_append_right_inj base |>.mpr hfront
    · intro g hg
      rw [List.mem_singleton] at hg
      subst hg
      exact ⟨hstart, g, List.mem_singleton_self g, List.prefix_refl g⟩
  · refine ⟨_, t, by simp [removeEntry, WriteMode.writes, heq]; rfl, ⟨ht, rfl,
      fun _ => Or.inl rfl, ?_⟩, [], by simp [CleanupReport.fail], List.Pairwise.nil, by simp⟩
    intro s hs below hfront hsize _
    rw [List.mem_singleton] at hs
    subst hs
    obtain ⟨rest, rfl⟩ := hfront
    by_contra hsome
    rw [← Ne, ← Option.isSome_iff_ne_none] at hsome
    have hgone := hnone (Nat.le_trans (size_le_of_isSome ht.toIsOrderly _ base s rest hsome) hsize)
    rw [← List.append_assoc] at hsome
    have hthere := ht.isSome_of_prefix (base ++ s) rest hsome
    rw [← hlocation, hgone] at hthere
    cases hthere

/-- The sweep of an entry that is kept. -/
theorem sweeps_keep {t : FileTree} (ht : t.IsPlain) (hwork : t.workingFolder = work)
    (start : List String) (hstart : ∀ n ∈ start, IsFileName n) (hne : start ≠ [])
    (hjudge : judge t root (root.tidy.extend start) deprecated = .keep)
    (report : CleanupReport) : Sweeps root base deprecated t t report report [start] := by
  have hnotFolder : ¬ t.isFolder (root.tidy.extend start) = true := by
    intro hfolder
    by_cases hpath : Contains (searchedPart root (root.tidy.extend start)) deprecated
    · rw [(judge_eq_remove_iff _ _ _ _).mpr (Or.inl hpath)] at hjudge
      cases hjudge
    · rw [(judge_eq_descend_iff _ _ _ _).mpr ⟨hpath, hfolder⟩] at hjudge
      cases hjudge
  refine ⟨⟨ht, rfl, fun _ => Or.inl rfl, ?_⟩, [], by simp, List.Pairwise.nil, by simp⟩
  intro s hs below hfront hsize htied
  rw [List.mem_singleton] at hs
  subst hs
  obtain ⟨rest, rfl⟩ := hfront
  by_contra hsome
  rw [← Ne, ← Option.isSome_iff_ne_none] at hsome
  by_cases hrest : rest = []
  · subst hrest
    rw [List.append_nil] at htied hsize
    rw [hsite.judge_of_tied ht hwork s hstart hne deprecated htied hsize] at hjudge
    cases hjudge
  · -- There is nothing below what is no folder.
    have hle := Nat.le_trans (size_le_of_isSome ht.toIsOrderly _ base s rest hsome) hsize
    rw [← List.append_assoc] at hsome
    exact hnotFolder ((hsite.isFolder_iff ht hwork s hstart).mpr
      ⟨hle, ht.folder_of_prefix _ rest hrest hsome⟩)

/-- A sweep of all entries of a folder is a sweep of the folder, if the folder
    itself is not tied. -/
theorem Sweeps.of_children {t t' : FileTree} {report report' : CleanupReport} (ht : t.IsPlain)
    (hwork : t.workingFolder = work) (start : List String) (hstart : ∀ n ∈ start, IsFileName n)
    (hjudge : judge t root (root.tidy.extend start) deprecated = .descend) (names : List String)
    (hnames : ∀ n, (t.get? (base ++ (start ++ [n]))).isSome →
      (root.tidy.extend (start ++ [n])).text.utf8ByteSize ≤ maxPathSize → n ∈ names)
    (h : Sweeps root base deprecated t t' report report' (names.map fun n => start ++ [n])) :
    Sweeps root base deprecated t t' report report' [start] := by
  rw [judge_eq_descend_iff, hsite.searchedPart_extend start hstart] at hjudge
  obtain ⟨hpath, hisFolder⟩ := hjudge
  have hfolder := ((hsite.isFolder_iff ht hwork start hstart).mp hisFolder).2
  have hunder : ∀ s ∈ names.map (fun n => start ++ [n]), start <+: s := by
    intro s hs
    obtain ⟨n, -, rfl⟩ := List.mem_map.mp hs
    exact List.prefix_append start [n]
  obtain ⟨gone, hgone, hpairwise, hbelow⟩ := h.removed
  refine ⟨⟨h.cleaned.plain, h.cleaned.working, ?_, ?_⟩, gone, hgone, hpairwise, ?_⟩
  · intro l
    rcases h.cleaned.only l with hsame | ⟨hnone, s, hs, below, hfront, hl, htied⟩
    · exact Or.inl hsame
    · exact Or.inr ⟨hnone, start, List.mem_singleton_self start, below,
        (hunder s hs).trans hfront, hl, htied⟩
  · intro s hs below hfront hsize htied
    rw [List.mem_singleton] at hs
    subst hs
    obtain ⟨rest, rfl⟩ := hfront
    by_contra hsome
    have hthere : (t.get? (base ++ (s ++ rest))).isSome := by
      rcases h.cleaned.less (base ++ (s ++ rest)) with hsame | hnone
      · rw [← hsame]
        exact Option.isSome_iff_ne_none.mpr hsome
      · exact absurd hnone hsome
    cases rest with
    | nil =>
        rw [List.append_nil] at htied
        rcases htied with hpath' | ⟨_, content, -, hget, -⟩
        · exact hpath hpath'
        · rw [hfolder] at hget
          cases hget
    | cons n rest =>
        rw [List.append_cons] at hthere hsize
        have hmem : n ∈ names := by
          refine hnames n ?_ ?_
          · exact ht.isSome_of_prefix _ rest (by rwa [List.append_assoc])
          · exact Nat.le_trans (size_le_of_isSome ht.toIsOrderly _ base _ rest hthere) hsize
        apply hsome
        rw [List.append_cons] at htied ⊢
        exact h.cleaned.all _ (List.mem_map_of_mem hmem) _ (List.prefix_append _ rest) hsize htied
  · intro g hg
    obtain ⟨hgnames, s, hs, hfront⟩ := hbelow g hg
    exact ⟨hgnames, start, List.mem_singleton_self start, (hunder s hs).trans hfront⟩

/-- The sweep of a list of entries, given what it does with the folders among
    them. -/
theorem sweeps_entries
    (deep : Path → CleanupReport → FileTree → Except Cause CleanupReport × FileTree)
    (starts : List (List String)) (hstarts : ∀ s ∈ starts, (∀ n ∈ s, IsFileName n) ∧ s ≠ [])
    (hapart : starts.Pairwise Apart)
    (hdeep : ∀ s ∈ starts, ∀ (t : FileTree) (report : CleanupReport), t.IsPlain →
      t.workingFolder = work → judge t root (root.tidy.extend s) deprecated = .descend →
      ∃ report' t', deep (root.tidy.extend s) report t = (.ok report', t') ∧
        Sweeps root base deprecated t t' report report' [s])
    (t : FileTree) (ht : t.IsPlain) (hwork : t.workingFolder = work) (report : CleanupReport) :
    ∃ report' t', sweepEntries root deprecated .apply deep (starts.map root.tidy.extend) report t =
        (.ok report', t') ∧
      Sweeps root base deprecated t t' report report' starts := by
  induction starts generalizing t report with
  | nil =>
      exact ⟨report, t, rfl, Cleaned.refl ht, [], by simp, List.Pairwise.nil, by simp⟩
  | cons start starts ih =>
      obtain ⟨hstart, hne⟩ := hstarts start List.mem_cons_self
      rw [List.pairwise_cons] at hapart
      -- The first entry, whatever becomes of it, and then the others.
      have hrest : ∀ report₁ t₁ report₂,
          sweepEntries root deprecated .apply deep ((start :: starts).map root.tidy.extend) report
              t =
            sweepEntries root deprecated .apply deep (starts.map root.tidy.extend) report₁ t₁ →
          report₂.removed = report.removed →
          Sweeps root base deprecated t t₁ report₂ report₁ [start] →
          ∃ report' t', sweepEntries root deprecated .apply deep
              ((start :: starts).map root.tidy.extend) report t = (.ok report', t') ∧
            Sweeps root base deprecated t t' report report' (start :: starts) := by
        intro report₁ t₁ report₂ heq hreport hfirst
        obtain ⟨report', t', heq', hothers⟩ := ih
          (fun s hs => hstarts s (List.mem_cons_of_mem _ hs)) hapart.2
          (fun s hs => hdeep s (List.mem_cons_of_mem _ hs)) t₁ hfirst.cleaned.plain
          (hfirst.cleaned.working.trans hwork) report₁
        exact ⟨report', t', heq.trans heq',
          (hfirst.of_removed hreport).cons hothers hapart.1⟩
      cases hjudge : judge t root (root.tidy.extend start) deprecated with
      | keep =>
          refine hrest report.scan t report.scan ?_ rfl
            (sweeps_keep hsite deprecated ht hwork start hstart hne hjudge _)
          rw [List.map_cons, sweepEntries, hjudge]
      | remove =>
          obtain ⟨report₁, t₁, heq, hfirst⟩ :=
            sweeps_remove hsite deprecated ht hwork start hstart hne hjudge report.scan
          refine hrest report₁ t₁ report.scan ?_ rfl hfirst
          rw [List.map_cons, sweepEntries, hjudge]
          simp only [heq]
      | descend =>
          obtain ⟨report₁, t₁, heq, hfirst⟩ :=
            hdeep start List.mem_cons_self t report.scan ht hwork hjudge
          refine hrest report₁ t₁ report.scan ?_ rfl hfirst
          rw [List.map_cons, sweepEntries, hjudge]
          simp only [heq]

/-- The sweep of a folder, given enough depth for the length of paths. -/
theorem sweeps_folder (depth : Nat) (start : List String) (hstart : ∀ n ∈ start, IsFileName n)
    (hdepth : maxPathSize < (root.tidy.extend start).text.utf8ByteSize + depth)
    (t : FileTree) (ht : t.IsPlain) (hwork : t.workingFolder = work)
    (hjudge : judge t root (root.tidy.extend start) deprecated = .descend)
    (report : CleanupReport) :
    ∃ report' t', sweepFolder root deprecated .apply depth (root.tidy.extend start) report t =
        (.ok report', t') ∧
      Sweeps root base deprecated t t' report report' [start] := by
  have hfolder := ((judge_eq_descend_iff _ _ _ _).mp hjudge).2
  have hsize := ((hsite.isFolder_iff ht hwork start hstart).mp hfolder).1
  -- The depth is spent with the length of the path, so it is not used up first.
  induction depth generalizing start t report with
  | zero => omega
  | succ depth ih =>
      have hundotted : (root.tidy.extend start).Undotted :=
        Path.Undotted.extend hsite.undotted.tidy start fun s hs => (hstart s hs).noSlash
      have hdots := hsite.dots_extend start hstart
      have htidy := Path.tidy_tidy_extend root start hstart
      have hlocation : t.location (Glob.spelled (root.tidy.extend start)) = base ++ start := by
        rw [Glob.location_spelled t _, hsite.location_extend hwork start hstart]
      have hspelledDots : ".." ∉ (Glob.spelled (root.tidy.extend start)).steps := by
        rw [Glob.steps_spelled _ hundotted]
        exact hdots
      let names := Glob.namesIn t (Glob.spelled (root.tidy.extend start))
      have hnamesAt : Glob.namesAt t 1 (Glob.spelled (root.tidy.extend start)) =
          names.map fun n => [n] := by
        rw [Glob.namesAt, List.map_eq_flatMap]
        rfl
      have hfile : ∀ n ∈ names, IsFileName n := fun n hn =>
        Glob.isFileName_of_mem_namesIn ht.named _ n hn
      have hstarts : ∀ s ∈ names.map (fun n => start ++ [n]),
          (∀ n ∈ s, IsFileName n) ∧ s ≠ [] := by
        intro s hs
        obtain ⟨n, hn, rfl⟩ := List.mem_map.mp hs
        refine ⟨?_, by simp⟩
        rw [List.forall_mem_append, List.forall_mem_singleton]
        exact ⟨hstart, hfile n hn⟩
      have hnodup : names.Nodup := Glob.nodup_namesIn t ht.nodup _
      have hapart : (names.map fun n => start ++ [n]).Pairwise Apart := by
        rw [List.pairwise_map]
        refine hnodup.imp ?_
        intro a b hab
        refine apart_of_length (by simp) ?_
        intro heq
        exact hab (List.singleton_inj.mp (List.append_cancel_left heq))
      have hlisted : listEntries t (childrenPattern (root.tidy.extend start)) =
          .ok ((names.map fun n => start ++ [n]).map root.tidy.extend) := by
        rw [childrenPattern_eq, listEntries_stars ht.toIsOrderly _ hundotted 0,
          htidy, hnamesAt, List.map_map, List.map_map]
        refine congrArg Except.ok (List.map_congr_left fun n _ => ?_)
        exact (Path.extend_append root.tidy start [n]).symm
      obtain ⟨report', t', heq, hsweeps⟩ := sweeps_entries hsite deprecated
        (sweepFolder root deprecated .apply depth) (names.map fun n => start ++ [n]) hstarts hapart
        (fun s hs t₁ report₁ ht₁ hwork₁ hjudge₁ => by
          obtain ⟨n, hn, rfl⟩ := List.mem_map.mp hs
          have hfolder₁ := ((judge_eq_descend_iff _ _ _ _).mp hjudge₁).2
          refine ih _ (hstarts _ hs).1 ?_ t₁ ht₁ hwork₁ hjudge₁ report₁ hfolder₁
            ((hsite.isFolder_iff ht₁ hwork₁ _ (hstarts _ hs).1).mp hfolder₁).1
          -- Every level makes the path longer by a byte at least.
          have hpos : 0 < n.utf8ByteSize := by
            rw [Nat.pos_iff_ne_zero, Ne, String.utf8ByteSize_eq_zero_iff]
            exact (hfile n hn).ne_empty
          rw [Path.extend_concat, Path.size_join _ _ (hfile n hn).noSlash hundotted.ne_empty]
          omega)
        t ht hwork report
      refine ⟨report', t', by rw [sweepFolder, hlisted]; exact heq, ?_⟩
      -- Nothing in the folder is passed over, apart from what is too far down.
      refine hsweeps.of_children hsite deprecated ht hwork start hstart hjudge names ?_
      intro n hsome hlong
      have hn : IsFileName n := isFileName_of_isEntryName (ht.named _ hsome n (by simp))
      have hmem := Glob.mem_namesAt ht 1 _ (Glob.undotted_spelled _ hundotted) hspelledDots [n] rfl
        (by rw [hlocation, List.append_assoc]; exact hsome)
        (by
          rw [Path.extend_cons, Glob.spelled_join _ hundotted n hn.noSlash, htidy,
            ← Path.extend_cons, ← Path.extend_append]
          exact hlong)
      rw [hnamesAt, List.mem_map] at hmem
      obtain ⟨n', hn', heq'⟩ := hmem
      rw [← List.singleton_inj.mp heq']
      exact hn'

end Sweep

theorem prefix_of_map_name {a b : List String}
    (h : a.map Component.name <+: b.map Component.name) : a <+: b := by
  obtain ⟨front, hfront, heq⟩ := List.prefix_map_iff.mp h
  have hinj : Function.Injective Component.name := fun x y hxy => Component.name.inj hxy
  rw [List.map_injective_iff.mpr hinj heq]
  exact hfront

/-- A relative path of plain names is the path of a project folder. -/
theorem site_of_components (t : FileTree) (root : Path) (names : List String)
    (hroot : root.components = names.map .name) (hne : names ≠ []) :
    Site root t.workingFolder (t.workingFolder ++ names) := by
  have hlead : root.lead = [] ∧ root.steps.filterMap Component.ofPiece? = names.map .name := by
    rw [Path.components_eq, Path.lead] at hroot
    rw [Path.lead]
    obtain ⟨name, rest, rfl⟩ := List.exists_cons_of_ne_nil hne
    split
    · next h =>
        rw [if_pos h] at hroot
        cases hroot
    · next h =>
        rw [if_neg h] at hroot
        split
        · next h' =>
            rw [if_pos h'] at hroot
            cases hroot
        · next h' =>
            rw [if_neg h'] at hroot
            exact ⟨rfl, hroot⟩
  obtain ⟨hstart, hsteps⟩ := hlead
  have hrelative : root.isAbsolute = false := by
    rw [Path.lead] at hstart
    split at hstart
    · cases hstart
    · next h => simpa using h
  refine ⟨⟨?_, ?_⟩, hrelative, ?_, ?_⟩
  · intro hempty
    rw [show root = ⟨""⟩ from congrArg Path.mk hempty] at hsteps
    exact hne (List.map_eq_nil_iff.mp hsteps.symm)
  · intro hdot
    rw [Path.lead, if_neg (by rw [hrelative]; simp), if_pos hdot] at hstart
    cases hstart
  · intro hmem
    have hparent : Component.parent ∈ root.steps.filterMap Component.ofPiece? :=
      List.mem_filterMap.mpr ⟨"..", hmem, rfl⟩
    rw [hsteps, List.mem_map] at hparent
    obtain ⟨n, -, hn⟩ := hparent
    cases hn
  · rw [← Path.filterMap_ofPiece?_eq root.steps fun s hs => (Path.mem_steps root s hs).1, hsteps,
      List.map_map]
    simp [Function.comp_def, Component.text]

section Candidates

variable {t : FileTree} (ht : t.IsPlain) {root : Path} {base : Location}
  (hsite : Site root t.workingFolder base)
include ht hsite

omit ht in
theorem Site.spelled_dots : ".." ∉ (Glob.spelled root).steps := by
  rw [Glob.steps_spelled _ hsite.undotted]
  exact hsite.dots

/-- The entry two levels below the project folder that another entry is in. -/
theorem Site.take_mem_candidates (below : List String) (hbelow : ∀ n ∈ below, IsFileName n)
    (hlength : 2 ≤ below.length) (hsome : (t.get? (base ++ below)).isSome)
    (hsize : (root.tidy.extend below).text.utf8ByteSize ≤ maxPathSize) :
    below.take 2 ∈ Glob.namesAt t 2 (Glob.spelled root) := by
  have hsplit := List.take_append_drop 2 below
  have htaken : ∀ n ∈ below.take 2, '/' ∉ n.toList := fun n hn =>
    (hbelow n (List.mem_of_mem_take hn)).noSlash
  have htake : (below.take 2).length = 2 := by
    rw [List.length_take]
    omega
  have hlocation : t.location (Glob.spelled root) = base := by
    have hnil := hsite.location_extend rfl [] (by simp)
    rw [Path.extend_nil, List.append_nil] at hnil
    rw [Glob.location_spelled t root, ← hnil, location, location, origin, origin,
      Path.steps_tidy root, Path.isAbsolute_tidy root]
  have hle : (root.tidy.extend (below.take 2)).text.utf8ByteSize ≤ maxPathSize := by
    refine Nat.le_trans (size_le_of_isSome ht.toIsOrderly root.tidy base _ (below.drop 2) ?_) ?_
    · rwa [hsplit]
    · rwa [hsplit]
  refine Glob.mem_namesAt ht 2 _ (Glob.undotted_spelled _ hsite.undotted)
    hsite.spelled_dots _ htake ?_ ?_
  · rw [hlocation]
    refine ht.isSome_of_prefix _ (below.drop 2) ?_
    rwa [List.append_assoc, hsplit]
  · rwa [← Glob.descend_of_undotted _ (Glob.undotted_spelled _ hsite.undotted) _ htaken,
      Glob.descend_spelled root hsite.undotted _ (List.ne_nil_of_length_pos (by omega)) htaken]

/-- A cleanup is a sweep from the entries two levels below the project
    folder. -/
theorem sweeps_deleteDeprecated (deprecated : String) (hdeprecated : deprecated ≠ "") :
    ∃ report after, deleteDeprecated t root deprecated .apply = (.ok report, after) ∧
      Sweeps root base deprecated t after {} report (Glob.namesAt t 2 (Glob.spelled root)) := by
  have hstarts : ∀ s ∈ Glob.namesAt t 2 (Glob.spelled root),
      s.length = 2 ∧ ∀ n ∈ s, IsFileName n := fun s hs =>
    Glob.mem_namesAt_names ht.named 2 _ s hs
  have hapart : (Glob.namesAt t 2 (Glob.spelled root)).Pairwise Apart := by
    refine (Glob.nodup_namesAt t ht.nodup 2 (Glob.spelled root)).imp_of_mem ?_
    intro a b ha hb hab
    exact apart_of_length ((hstarts a ha).1.trans (hstarts b hb).1.symm) hab
  obtain ⟨report, after, heq, hsweeps⟩ := sweeps_entries hsite deprecated
    (sweepFolder root deprecated .apply maxPathSize) _
    (fun s hs => ⟨(hstarts s hs).2,
      List.ne_nil_of_length_pos (by rw [(hstarts s hs).1]; decide)⟩)
    hapart
    (fun s hs t₁ report₁ ht₁ hwork₁ hjudge₁ => by
      refine sweeps_folder hsite deprecated maxPathSize s (hstarts s hs).2 ?_ t₁ ht₁ hwork₁ hjudge₁
        report₁
      have hpos : 0 < (root.tidy.extend s).text.utf8ByteSize := by
        rw [Nat.pos_iff_ne_zero, Ne, String.utf8ByteSize_eq_zero_iff]
        exact (Path.Undotted.extend hsite.undotted.tidy s
          fun n hn => ((hstarts s hs).2 n hn).noSlash).ne_empty
      omega)
    t ht rfl {}
  refine ⟨report, after, ?_, hsweeps⟩
  rw [deleteDeprecated, String.isEmpty_eq_false_iff.mpr hdeprecated, if_neg Bool.false_ne_true,
    candidatesPattern_eq, listEntries_stars ht.toIsOrderly root hsite.undotted 1]
  exact heq

end Candidates

/-- A cleanup of a plain tree always ends, and removes exactly what is tied to
    the prefix, two levels or more below the project folder. Nothing else
    changes, and no entry is reported twice or together with one that it is
    in. -/
theorem deleteDeprecated_exact (t : FileTree) (ht : t.IsPlain) (root : Path)
    (names : List String) (hroot : root.components = names.map .name) (hnames : names ≠ [])
    (deprecated : String) (hdeprecated : deprecated ≠ "") :
    ∃ report after, deleteDeprecated t root deprecated .apply = (.ok report, after) ∧
      (∀ below, (∀ n ∈ below, IsFileName n) → 2 ≤ below.length →
        t.exists? (root.tidy.extend below) = true →
        (after.exists? (root.tidy.extend below) = false ↔
          Tied t (t.workingFolder ++ names) deprecated below)) ∧
      (∀ l, after.get? l = t.get? l ∨ (after.get? l = none ∧
        ∃ below, l = t.workingFolder ++ names ++ below ∧ 2 ≤ below.length ∧
          Tied t (t.workingFolder ++ names) deprecated below)) ∧
      report.removed.Pairwise fun p q =>
        ¬ p.components <+: q.components ∧ ¬ q.components <+: p.components := by
  have hsite := site_of_components t root names hroot hnames
  obtain ⟨report, after, heq, hsweeps⟩ := sweeps_deleteDeprecated ht hsite deprecated hdeprecated
  refine ⟨report, after, heq, ?_, ?_, ?_⟩
  · -- What exists has a path that is not too long, so only the entry itself counts.
    intro below hbelow hlength hexists
    have hne : below ≠ [] := List.ne_nil_of_length_pos (by omega)
    obtain ⟨hsize, hsome⟩ := (hsite.exists?_iff ht rfl below hbelow hne).mp hexists
    have hafter : after.exists? (root.tidy.extend below) = false ↔
        after.get? (t.workingFolder ++ names ++ below) = none := by
      rw [← Bool.not_eq_true, hsite.exists?_iff hsweeps.cleaned.plain hsweeps.cleaned.working below
        hbelow hne, ← Option.not_isSome_iff_eq_none]
      exact not_congr (and_iff_right hsize)
    rw [hafter]
    constructor
    · intro hnone
      rcases hsweeps.cleaned.only (t.workingFolder ++ names ++ below) with
        hsame | ⟨-, s, hs, below', hfront, hl, htied⟩
      · rw [hsame] at hnone
        rw [hnone] at hsome
        cases hsome
      · rw [List.append_cancel_left hl]
        exact htied
    · exact hsweeps.cleaned.all _ (hsite.take_mem_candidates ht below hbelow hlength hsome hsize)
        below (List.take_prefix 2 below) hsize
  · intro l
    rcases hsweeps.cleaned.only l with hsame | ⟨hnone, s, hs, below, hfront, rfl, htied⟩
    · exact Or.inl hsame
    · refine Or.inr ⟨hnone, below, rfl, ?_, htied⟩
      rw [← (Glob.mem_namesAt_names ht.named 2 _ s hs).1]
      exact hfront.length_le
  · -- Names that are apart make paths that are apart.
    obtain ⟨gone, hgone, hpairwise, hbelow⟩ := hsweeps.removed
    rw [hgone, List.nil_append, List.pairwise_map]
    refine hpairwise.imp_of_mem ?_
    intro a b ha hb hab
    rw [Path.components_extend _ _ (hbelow a ha).1, Path.components_extend _ _ (hbelow b hb).1,
      List.prefix_append_right_inj, List.prefix_append_right_inj]
    exact ⟨fun h => hab.1 (prefix_of_map_name h), fun h => hab.2 (prefix_of_map_name h)⟩

/-- A project with two files in a folder. -/
def smallProject : FileTree :=
  { entries := [(["p"], .folder), (["p", "c"], .folder), (["p", "c", "x"], .file (.text "")),
      (["p", "c", "y"], .file (.text ""))] }

/-- A prefix can go across a slash. -/
theorem deleteDeprecated_exact_straddling :
    smallProject.IsPlain ∧ (Path.mk "p/").components = ["p"].map .name ∧
      ∃ report after, deleteDeprecated smallProject ⟨"p/"⟩ "c/x" .apply = (.ok report, after) ∧
        after.exists? ⟨"p/c/x"⟩ = false ∧ after.exists? ⟨"p/c/y"⟩ = true := by
  have hplain : smallProject.IsPlain := isPlain_of_check _ (by decide +kernel)
  have hroot : (Path.mk "p/").components = ["p"].map .name := by decide +kernel
  obtain ⟨report, after, heq, hexact, -, -⟩ := deleteDeprecated_exact smallProject hplain ⟨"p/"⟩
    ["p"] hroot (by decide) "c/x" (by decide)
  refine ⟨hplain, hroot, report, after, heq, ?_, ?_⟩
  · exact (hexact ["c", "x"] (by decide) (by decide) (by decide +kernel)).mpr
      (Or.inl ⟨[], [], by decide⟩)
  · by_contra hgone
    rcases (hexact ["c", "y"] (by decide) (by decide) (by decide +kernel)).mp
      (Bool.not_eq_true _ ▸ hgone) with hpath | ⟨name, content, hname, -, document, -, hends⟩
    · exact absurd hpath (by unfold Contains; decide)
    · cases hname
      rcases hends with ⟨hfield, -⟩ | ⟨hlayout, -⟩
      · exact absurd hfield (by unfold EndsIn; decide +kernel)
      · exact absurd hlayout (by unfold EndsIn; decide +kernel)

end SchemaRename
