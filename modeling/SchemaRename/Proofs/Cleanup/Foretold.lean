import SchemaRename.Proofs.Cleanup.Exact
import SchemaRename.Proofs.Run.DryRun

/-!
# What a Dry Cleanup Foretells

A dry cleanup reports what a real one would remove.

The real cleanup works on a tree that loses entries as it goes, and the dry
one on a tree that stays. Both come to the same entries in the same order,
because an entry is judged by what is at its location and below it, and no
removal reaches below another entry. So the two are run side by side, the dry
one on a tree of its own, and all that is asked of the two trees is that they
look alike to a cleanup: the same entries, and the same of them tied by what
is in them.

The two part when a removal fails, which the dry cleanup cannot know.

## Main definitions

* `TiedAt`: A location holds a file that is tied by its content.
* `Alike`: Trees that a cleanup cannot tell apart below a location.
* `LeadsDown`: A path that goes down to an entry and ends in its name.
* `Foretold`: A real sweep with the dry one at its side.

## Theorems

* `judge_alike`, `namesIn_alike`: What the two cleanups meet.
* `foretold_entries`, `foretold_folder`: The sweeps of a list and of a folder.
* `deleteDeprecated_foretold`: The two cleanups.
-/

namespace SchemaRename

open SchemaRename.FileTree

/-- A location holds a file that is tied to a prefix by what is in it. -/
def TiedAt (t : FileTree) (deprecated : String) (l : Location) : Prop :=
  ∃ name content, l.getLast? = some name ∧ t.get? l = some (.file (.text content)) ∧
    ContentTied name content deprecated

/-- Two trees that a cleanup cannot tell apart at a location and below it: they
    have the same entries there, and the same of them are folders and tied by
    their content. -/
structure Alike (deprecated : String) (t t' : FileTree) (l : Location) : Prop where
  present : ∀ m, l <+: m → ((t'.get? m).isSome ↔ (t.get? m).isSome)
  folder : ∀ m, l <+: m → (t'.get? m = some .folder ↔ t.get? m = some .folder)
  tied : ∀ m, l <+: m → (TiedAt t' deprecated m ↔ TiedAt t deprecated m)

theorem Alike.below {deprecated : String} {t t' : FileTree} {l m : Location}
    (h : Alike deprecated t t' l) (hm : l <+: m) : Alike deprecated t t' m :=
  ⟨fun k hk => h.present k (hm.trans hk), fun k hk => h.folder k (hm.trans hk),
    fun k hk => h.tied k (hm.trans hk)⟩

/-- A change elsewhere does not matter. -/
theorem Alike.of_frame {deprecated : String} {t t₁ t₂ : FileTree} {l : Location}
    (h : Alike deprecated t t₁ l) (hframe : ∀ m, l <+: m → t₂.get? m = t₁.get? m) :
    Alike deprecated t t₂ l := by
  refine ⟨?_, ?_, ?_⟩
  · intro m hm
    rw [hframe m hm]
    exact h.present m hm
  · intro m hm
    rw [hframe m hm]
    exact h.folder m hm
  · intro m hm
    have hsame : TiedAt t₂ deprecated m ↔ TiedAt t₁ deprecated m := by
      unfold TiedAt
      rw [hframe m hm]
    exact hsame.trans (h.tied m hm)

/-- A path that goes down to an entry and ends in its name. -/
structure LeadsDown (p : Path) (name : String) : Prop where
  undotted : p.Undotted
  dots : ".." ∉ p.steps
  isName : IsFileName name
  last : ∃ front, p.steps = front ++ [name]
  slash : p.endsInSlash = false
  fileName : p.fileName? = some name

theorem leadsDown_join (p : Path) (name : String) (hname : IsFileName name)
    (hundotted : (p.join name).Undotted) (hdots : ".." ∉ p.steps) :
    LeadsDown (p.join name) name where
  undotted := hundotted
  dots := p.dots_join name hname.noSlash hname.ne_dots hdots
  isName := hname
  last := ⟨p.steps, Path.steps_join_name p name hname⟩
  slash := Path.endsInSlash_join p name hname.noSlash hname.ne_empty
  fileName := Path.fileName?_join p name hname

/-- The names that the search finds in a folder lead down. -/
theorem leadsDown_inFolder (folder : Path) (hfolder : folder.Undotted ∨ folder = ⟨"."⟩)
    (hdots : ".." ∉ folder.steps) (name : String) (hname : IsFileName name) :
    LeadsDown (Glob.inFolder folder name) name := by
  rcases hfolder with hundotted | rfl
  · rw [Glob.inFolder_of_ne _ _ hundotted.text_ne_dot]
    exact leadsDown_join folder name hname (hundotted.join name hname.noSlash) hdots
  · have heq : Glob.inFolder ⟨"."⟩ name = (Path.mk "").join name := by
      rw [Path.empty_join name hname.noSlash]
      rfl
    rw [heq]
    refine leadsDown_join ⟨""⟩ name hname ?_ (by decide)
    rw [Path.empty_join name hname.noSlash]
    exact Path.undotted_of_isFileName name hname

theorem location_of_working {t t' : FileTree} (h : t'.workingFolder = t.workingFolder) (p : Path) :
    t'.location p = t.location p := by
  rw [location, location, origin, origin, h]

section Alike

variable {t t' : FileTree} (ht : t.IsPlain) (ht' : t'.IsPlain)
  (hwork : t'.workingFolder = t.workingFolder) {deprecated : String} (p : Path)
  (h : Alike deprecated t t' (t.location p))
include ht ht' hwork h

theorem isFolder_alike (hdots : ".." ∉ p.steps) : t'.isFolder p = t.isFolder p := by
  rw [Bool.eq_iff_iff, isFolder_iff_location ht' p hdots, isFolder_iff_location ht p hdots,
    location_of_working hwork, h.folder _ (List.prefix_refl _)]

/-- The same names are found in the folder. -/
theorem namesIn_alike (hdots : ".." ∉ p.steps) : Glob.namesIn t' p = Glob.namesIn t p := by
  rw [Glob.namesIn_eq ht' p hdots, Glob.namesIn_eq ht p hdots,
    isFolder_alike ht ht' hwork p h hdots, location_of_working hwork]
  split
  · exact children_eq t t' ht.nodup ht'.nodup _ _ fun n => h.present _ (List.prefix_append _ _)
  · rfl

/-- The same names are found at some depth below the folder. -/
theorem namesAt_alike (hdots : ".." ∉ p.steps) (n : Nat) :
    Glob.namesAt t' n p = Glob.namesAt t n p := by
  induction n generalizing p with
  | zero => rfl
  | succ n ih =>
      rw [Glob.namesAt, Glob.namesAt, namesIn_alike ht ht' hwork p h hdots]
      refine List.flatMap_congr fun name hname => ?_
      have hfile := Glob.isFileName_of_mem_namesIn ht.named p name hname
      rw [ih (Glob.inFolder p name) ?_
        (Glob.dots_inFolder p name hfile.noSlash hfile.ne_dots hdots)]
      rw [Glob.location_inFolder_name t p name hfile]
      exact h.below (List.prefix_append _ _)

omit ht' hwork h in
/-- A file is tied by its content if its path is not too long. -/
theorem fileTied_iff (name : String) (hp : LeadsDown p name) :
    FileTied t p deprecated ↔
      p.text.utf8ByteSize ≤ maxPathSize ∧ TiedAt t deprecated (t.location p) := by
  obtain ⟨front, hsteps⟩ := hp.last
  have hlast : (t.location p).getLast? = some name := by
    rw [location, hsteps, List.filter_append,
      List.filter_cons_of_pos (by simpa using hp.isName.ne_dot), List.filter_nil,
      ← List.append_assoc, List.getLast?_concat]
  have hread := readText_iff_location ht p front name hsteps hp.isName hp.slash hp.dots
  constructor
  · rintro ⟨name', content, hname', hcontent, htied⟩
    rw [hp.fileName, Option.some.injEq] at hname'
    subst hname'
    obtain ⟨hsize, hget⟩ := (hread content).mp hcontent
    exact ⟨hsize, name, content, hlast, hget, htied⟩
  · rintro ⟨hsize, name', content, hname', hget, htied⟩
    rw [hlast, Option.some.injEq] at hname'
    subst hname'
    exact ⟨name, content, hp.fileName, (hread content).mpr ⟨hsize, hget⟩, htied⟩

/-- An entry gets the same verdict. -/
theorem judge_alike (name : String) (hp : LeadsDown p name) (root : Path) :
    judge t' root p deprecated = judge t root p deprecated := by
  have hremove : judge t' root p deprecated = .remove ↔ judge t root p deprecated = .remove := by
    rw [judge_eq_remove_iff, judge_eq_remove_iff, fileTied_iff ht' p name hp,
      fileTied_iff ht p name hp, location_of_working hwork, h.tied _ (List.prefix_refl _)]
  have hdescend : judge t' root p deprecated = .descend ↔
      judge t root p deprecated = .descend := by
    rw [judge_eq_descend_iff, judge_eq_descend_iff, isFolder_alike ht ht' hwork p h hp.dots]
  cases hv : judge t root p deprecated with
  | remove => exact hremove.mpr hv
  | descend => exact hdescend.mpr hv
  | keep =>
      cases hv' : judge t' root p deprecated with
      | keep => rfl
      | remove => rw [hremove.mp hv'] at hv; cases hv
      | descend => rw [hdescend.mp hv'] at hv; cases hv

end Alike

/-- A real sweep that has touched some locations, with the dry one at its side:
    if no removal has failed, the dry one reports the same. -/
structure Foretold (t t₁ t₂ : FileTree) (report report' : CleanupReport)
    (touched : List Location) (dry : Except Cause CleanupReport × FileTree) : Prop where
  plain : t₂.IsPlain
  working : t₂.workingFolder = t₁.workingFolder
  frame : ∀ m, (∀ l ∈ touched, ¬ l <+: m) → t₂.get? m = t₁.get? m
  failures : report.failures <+: report'.failures
  same : report'.failures = [] → dry = (.ok report', t)

section Sweep

variable {t : FileTree} (ht : t.IsPlain) (root : Path) (deprecated : String)
include ht

/-- The sweep of a list of entries, given that of the folders among them. -/
theorem foretold_entries
    (deep deepDry : Path → CleanupReport → FileTree → Except Cause CleanupReport × FileTree)
    (paths : List Path) (hpaths : ∀ p ∈ paths, ∃ name, LeadsDown p name)
    (hkept : ∀ p ∈ paths, ¬ t.location p <+: t.workingFolder)
    (hapart : paths.Pairwise fun p q => Apart (t.location p) (t.location q))
    (hdeep : ∀ p ∈ paths, ∀ t₁ report, t₁.IsPlain → t₁.workingFolder = t.workingFolder →
      Alike deprecated t t₁ (t.location p) →
      ∃ report' t₂, deep p report t₁ = (.ok report', t₂) ∧
        Foretold t t₁ t₂ report report' [t.location p] (deepDry p report t))
    (t₁ : FileTree) (ht₁ : t₁.IsPlain) (hwork : t₁.workingFolder = t.workingFolder)
    (halike : ∀ p ∈ paths, Alike deprecated t t₁ (t.location p)) (report : CleanupReport) :
    ∃ report' t₂, sweepEntries root deprecated .apply deep paths report t₁ = (.ok report', t₂) ∧
      Foretold t t₁ t₂ report report' (paths.map t.location)
        (sweepEntries root deprecated .dryRun deepDry paths report t) := by
  induction paths generalizing t₁ report with
  | nil =>
      exact ⟨report, t₁, rfl, ht₁, rfl, fun _ _ => rfl, List.prefix_refl _, fun _ => rfl⟩
  | cons p paths ih =>
      obtain ⟨name, hp⟩ := hpaths p List.mem_cons_self
      obtain ⟨hfirst, hrest⟩ := List.pairwise_cons.mp hapart
      have hjudge := judge_alike ht ht₁ hwork p (halike p List.mem_cons_self) name hp root
      -- What is done at one entry leaves the others as they were.
      have hstep : ∀ t₂ report₂, t₂.IsPlain → t₂.workingFolder = t.workingFolder →
          (∀ m, ¬ t.location p <+: m → t₂.get? m = t₁.get? m) →
          report.failures <+: report₂.failures →
          ∃ report' t₃,
            sweepEntries root deprecated .apply deep paths report₂ t₂ = (.ok report', t₃) ∧
            (∀ dry, (report₂.failures = [] →
                dry = sweepEntries root deprecated .dryRun deepDry paths report₂ t) →
              Foretold t t₁ t₃ report report' ((p :: paths).map t.location) dry) := by
        intro t₂ report₂ ht₂ hwork₂ hframe hfailures
        obtain ⟨report', t₃, heq, hdone⟩ := ih
          (fun q hq => hpaths q (List.mem_cons_of_mem _ hq))
          (fun q hq => hkept q (List.mem_cons_of_mem _ hq)) hrest
          (fun q hq => hdeep q (List.mem_cons_of_mem _ hq)) t₂ ht₂ hwork₂
          (fun q hq => (halike q (List.mem_cons_of_mem _ hq)).of_frame fun m hm =>
            hframe m fun hle => by
              rcases List.prefix_or_prefix_of_prefix hle hm with hpq | hqp
              · exact (hfirst q hq).1 hpq
              · exact (hfirst q hq).2 hqp)
          report₂
        refine ⟨report', t₃, heq, fun dry hdry => ⟨hdone.plain, ?_, ?_, ?_, ?_⟩⟩
        · rw [hdone.working, hwork₂, hwork]
        · intro m hm
          rw [List.map_cons] at hm
          rw [hdone.frame m fun l hl => hm l (List.mem_cons_of_mem _ hl),
            hframe m (hm _ List.mem_cons_self)]
        · exact hfailures.trans hdone.failures
        · intro hnone
          have hnone₂ : report₂.failures = [] := by
            have := hdone.failures
            rwa [hnone, List.prefix_nil] at this
          rw [hdry hnone₂]
          exact hdone.same hnone
      rw [sweepEntries, sweepEntries, hjudge]
      cases hverdict : judge t root p deprecated with
      | keep =>
          obtain ⟨report', t₃, heq, hdone⟩ := hstep t₁ report.scan ht₁ hwork (fun _ _ => rfl)
            (List.prefix_refl _)
          exact ⟨report', t₃, heq, hdone _ fun _ => rfl⟩
      | remove =>
          obtain ⟨front, hsteps⟩ := hp.last
          have hlocation := location_of_working hwork p
          rcases delete_cases ht₁ p front name hsteps hp.isName hp.slash hp.dots
            (by rw [hlocation, hwork]; exact hkept p List.mem_cons_self) ("remove " ++ p.text) with
            ⟨t₂, hdelete, hremoved⟩ | ⟨⟨e, hdelete⟩, -⟩
          · have hreal : removeEntry .apply p report.scan t₁ = (report.scan.remove p, t₂) := by
              simp only [removeEntry, WriteMode.writes, if_true, hdelete]
            rw [hlocation] at hremoved
            obtain ⟨report', t₃, heq, hdone⟩ := hstep t₂ (report.scan.remove p) hremoved.plain
              (hremoved.working.trans hwork) hremoved.frame (List.prefix_refl _)
            refine ⟨report', t₃, ?_, hdone _ fun _ => rfl⟩
            simp only [hreal]
            exact heq
          · -- A removal that fails is in the report to the end.
            have hreal : removeEntry .apply p report.scan t₁ =
                (report.scan.fail p e.cause.message, t₁) := by
              simp only [removeEntry, WriteMode.writes, if_true, hdelete]
            obtain ⟨report', t₃, heq, hdone⟩ := hstep t₁ (report.scan.fail p e.cause.message) ht₁
              hwork (fun _ _ => rfl) (List.prefix_append _ _)
            refine ⟨report', t₃, ?_, hdone _ fun hnone => ?_⟩
            · simp only [hreal]
              exact heq
            · simp [CleanupReport.fail] at hnone
      | descend =>
          obtain ⟨report₂, t₂, hreal, hfolder⟩ := hdeep p List.mem_cons_self t₁ report.scan ht₁
            hwork (halike p List.mem_cons_self)
          obtain ⟨report', t₃, heq, hdone⟩ := hstep t₂ report₂ hfolder.plain
            (hfolder.working.trans hwork)
            (fun m hm => hfolder.frame m (by simpa using hm)) hfolder.failures
          refine ⟨report', t₃, ?_, hdone _ fun hnone => ?_⟩
          · simp only [hreal]
            exact heq
          · simp only [hfolder.same hnone]

/-- The sweep of a folder. -/
theorem foretold_folder (depth : Nat) (p : Path) (name : String) (hp : LeadsDown p name)
    (hkept : ¬ t.location p <+: t.workingFolder) (t₁ : FileTree) (ht₁ : t₁.IsPlain)
    (hwork : t₁.workingFolder = t.workingFolder) (halike : Alike deprecated t t₁ (t.location p))
    (report : CleanupReport) :
    ∃ report' t₂, sweepFolder root deprecated .apply depth p report t₁ = (.ok report', t₂) ∧
      Foretold t t₁ t₂ report report' [t.location p]
        (sweepFolder root deprecated .dryRun depth p report t) := by
  induction depth generalizing p name t₁ report with
  | zero => exact ⟨report, t₁, rfl, ht₁, rfl, fun _ _ => rfl, List.prefix_refl _, fun _ => rfl⟩
  | succ depth ih =>
      have hspelled := Glob.location_spelled t p
      have hdots := Glob.dots_spelled p hp.dots
      have hnames : Glob.namesIn t₁ (Glob.spelled p) = Glob.namesIn t (Glob.spelled p) :=
        namesIn_alike ht ht₁ hwork _ (by rw [hspelled]; exact halike) hdots
      have hfile : ∀ n ∈ Glob.namesIn t (Glob.spelled p), IsFileName n := fun n hn =>
        Glob.isFileName_of_mem_namesIn ht.named _ n hn
      have hlist : ∀ u : FileTree, u.IsPlain →
          listEntries u (childrenPattern p) =
            .ok ((Glob.namesIn u (Glob.spelled p)).map p.tidy.join) := by
        intro u hu
        rw [childrenPattern_eq, listEntries_stars hu.toIsOrderly p hp.undotted 0, Glob.namesAt,
          List.map_flatMap, List.map_eq_flatMap]
        rfl
      have hlocation : ∀ n ∈ Glob.namesIn t (Glob.spelled p),
          t.location (p.tidy.join n) = t.location p ++ [n] := by
        intro n hn
        have htidy : t.location p.tidy = t.location p := by
          rw [location, location, origin, origin, Path.steps_tidy, Path.isAbsolute_tidy]
        rw [location_join t p.tidy n (hfile n hn).noSlash, htidy]
        simp [(hfile n hn).ne_dot, (hfile n hn).ne_empty]
      rw [sweepFolder, sweepFolder, hlist t₁ ht₁, hlist t ht, hnames]
      obtain ⟨report', t₂, heq, hdone⟩ := foretold_entries ht root deprecated
        (sweepFolder root deprecated .apply depth) (sweepFolder root deprecated .dryRun depth)
        ((Glob.namesIn t (Glob.spelled p)).map p.tidy.join)
        (List.forall_mem_map.mpr fun n hn => ⟨n, leadsDown_join p.tidy n (hfile n hn)
          (hp.undotted.tidy.join n (hfile n hn).noSlash) (by rw [Path.steps_tidy]; exact hp.dots)⟩)
        (List.forall_mem_map.mpr fun n hn => by
          rw [hlocation n hn]
          exact fun hle => hkept ((List.prefix_append _ _).trans hle))
        (by
          rw [List.pairwise_map]
          refine (Glob.nodup_namesIn t ht.nodup _).imp_of_mem fun {a b} ha hb hab => ?_
          rw [hlocation a ha, hlocation b hb]
          refine apart_of_length (by simp) fun heq => hab ?_
          exact List.singleton_inj.mp (List.append_cancel_left heq))
        (List.forall_mem_map.mpr fun n hn t₁ report ht₁ hwork₁ halike₁ => by
          refine ih (p.tidy.join n) n ?_ ?_ t₁ ht₁ hwork₁ halike₁ report
          · exact leadsDown_join p.tidy n (hfile n hn)
              (hp.undotted.tidy.join n (hfile n hn).noSlash)
              (by rw [Path.steps_tidy]; exact hp.dots)
          · rw [hlocation n hn]
            exact fun hle => hkept ((List.prefix_append _ _).trans hle))
        t₁ ht₁ hwork
        (List.forall_mem_map.mpr fun n hn => by
          rw [hlocation n hn]
          exact halike.below (List.prefix_append _ _))
        report
      refine ⟨report', t₂, heq, hdone.plain, hdone.working, ?_, hdone.failures, hdone.same⟩
      intro m hm
      refine hdone.frame m ?_
      rw [List.map_map]
      refine List.forall_mem_map.mpr fun n hn => ?_
      simp only [Function.comp_apply]
      rw [hlocation n hn]
      exact fun hle => hm _ (List.mem_singleton_self _) ((List.prefix_append _ _).trans hle)

end Sweep

section Candidates

variable {t : FileTree} (ht : t.IsPlain) (root : Path)
include ht

/-- The entries that a cleanup starts from: each of them once, two levels below
    the project folder. -/
theorem mem_candidates (hdots : ".." ∉ root.steps) (p : Path)
    (hp : p ∈ (Glob.namesAt t 2 (Glob.spelled root)).map (Glob.descend (Glob.spelled root))) :
    (∃ name, LeadsDown p name) ∧ ∃ a b, t.location p = t.location root ++ [a, b] := by
  obtain ⟨names, hnames, rfl⟩ := List.mem_map.mp hp
  obtain ⟨hlength, hfile⟩ := Glob.mem_namesAt_names ht.named _ _ _ hnames
  obtain ⟨a, b, rfl⟩ := List.length_eq_two.mp hlength
  have ha := hfile a List.mem_cons_self
  have hb := hfile b (List.mem_cons_of_mem _ List.mem_cons_self)
  have hfolder : (Glob.spelled root).Undotted ∨ Glob.spelled root = ⟨"."⟩ := by
    rcases Glob.spelled_cases root with hundotted | hdot | hempty
    · exact Or.inl hundotted
    · exact Or.inr hdot
    · -- Nothing is found in a folder without a name.
      rw [hempty, Glob.namesAt, Glob.namesIn,
        if_neg fun h => t.text_ne_empty_of_isFolder _ h rfl] at hnames
      simp at hnames
  have hfirst := leadsDown_inFolder _ hfolder (Glob.dots_spelled root hdots) a ha
  refine ⟨⟨b, leadsDown_inFolder _ (Or.inl hfirst.undotted) hfirst.dots b hb⟩, a, b, ?_⟩
  rw [Glob.descend, List.foldl_cons, List.foldl_cons, List.foldl_nil,
    Glob.location_inFolder_name t _ b hb, Glob.location_inFolder_name t _ a ha,
    Glob.location_spelled, List.append_assoc]
  rfl

theorem pairwise_candidates :
    ((Glob.namesAt t 2 (Glob.spelled root)).map (Glob.descend (Glob.spelled root))).Pairwise
      fun p q => Apart (t.location p) (t.location q) := by
  have hlocation : ∀ names ∈ Glob.namesAt t 2 (Glob.spelled root),
      names.length = 2 ∧ t.location (Glob.descend (Glob.spelled root) names) =
        t.location root ++ names := by
    intro names hnames
    obtain ⟨hlength, hfile⟩ := Glob.mem_namesAt_names ht.named _ _ _ hnames
    refine ⟨hlength, ?_⟩
    rw [Glob.location_descend t _ _ fun s hs => (hfile s hs).noSlash, Glob.location_spelled,
      List.filter_eq_self.mpr]
    intro s hs
    simp [(hfile s hs).ne_dot, (hfile s hs).ne_empty]
  rw [List.pairwise_map]
  refine (Glob.nodup_namesAt t ht.nodup 2 _).imp_of_mem fun {a b} ha hb hab => ?_
  obtain ⟨halength, ha⟩ := hlocation a ha
  obtain ⟨hblength, hb⟩ := hlocation b hb
  rw [ha, hb]
  refine apart_of_length (by simp [halength, hblength]) fun heq => hab ?_
  exact List.append_cancel_left heq

/-- Both cleanups start from the same entries. -/
theorem candidates_alike {t₁ : FileTree} (ht₁ : t₁.IsPlain) (hfolders : SameFolders t t₁)
    (deprecated : String) (hroot : t.isFolder root = true) (hdots : ".." ∉ root.steps)
    (halike : Alike deprecated t t₁ (t.location root)) :
    ∃ paths, listEntries t (candidatesPattern root) = .ok paths ∧
      listEntries t₁ (candidatesPattern root) = .ok paths ∧
      paths.Sublist
        ((Glob.namesAt t 2 (Glob.spelled root)).map (Glob.descend (Glob.spelled root))) := by
  obtain ⟨hne, -, hget⟩ := (isFolder_iff_location ht root hdots).mp hroot
  have hways := Glob.ways_sameFolders ht ht₁ hfolders root hdots hget
  have hnames := namesAt_alike ht ht₁ hfolders.working (Glob.spelled root)
    (by rw [Glob.location_spelled]; exact halike) (Glob.dots_spelled root hdots) 2
  have hlist : ∀ u : FileTree, u.IsPlain → listEntries u (candidatesPattern root) =
      .ok (List.replicate (Glob.ways u (Glob.startOf root) (Glob.piecesBehind root))
        ((Glob.namesAt u 2 (Glob.spelled root)).map
          (Glob.descend (Glob.spelled root)))).flatten := by
    intro u hu
    rw [candidatesPattern_eq, listEntries, Glob.find_escape hu.named root hne 1]
  refine ⟨_, hlist t ht, by rw [hlist t₁ ht₁, hways, hnames], ?_⟩
  -- There is one way to the project folder at most.
  have hone := Glob.ways_le_one t ht.nodup (Glob.startOf root) (Glob.piecesBehind root)
  rcases Nat.le_one_iff_eq_zero_or_eq_one.mp hone with hzero | hone
  · rw [hzero]
    exact List.nil_sublist _
  · rw [hone, List.replicate_one, List.flatten_singleton]

/-- A dry cleanup of one tree reports what a real cleanup of another does, if
    the two look alike and no removal fails. The working folder is not below
    the project folder here. -/
theorem deleteDeprecated_alike {t₁ : FileTree} (ht₁ : t₁.IsPlain) (hfolders : SameFolders t t₁)
    (deprecated : String) (hdeprecated : deprecated ≠ "") (hroot : t.isFolder root = true)
    (hdots : ".." ∉ root.steps) (halike : Alike deprecated t t₁ (t.location root))
    (hwork : t.workingFolder <+: t.location root) :
    ∃ report after, deleteDeprecated t₁ root deprecated .apply = (.ok report, after) ∧
      (report.failures = [] → deleteDeprecated t root deprecated .dryRun = (.ok report, t)) := by
  obtain ⟨paths, hlist, hlist₁, hsub⟩ :=
    candidates_alike ht root ht₁ hfolders deprecated hroot hdots halike
  have hmem := fun p (hp : p ∈ paths) => mem_candidates ht root hdots p (hsub.subset hp)
  have hkept : ∀ p ∈ paths, ¬ t.location p <+: t.workingFolder := by
    intro p hp hle
    obtain ⟨-, a, b, hlocation⟩ := hmem p hp
    have hlength := (hle.trans hwork).length_le
    simp only [hlocation, List.length_append, List.length_cons, List.length_nil] at hlength
    omega
  have hbelow : ∀ p ∈ paths, Alike deprecated t t₁ (t.location p) := by
    intro p hp
    obtain ⟨-, a, b, hlocation⟩ := hmem p hp
    rw [hlocation]
    exact halike.below (List.prefix_append _ _)
  obtain ⟨report, after, heq, hdone⟩ := foretold_entries ht root deprecated
    (sweepFolder root deprecated .apply maxPathSize)
    (sweepFolder root deprecated .dryRun maxPathSize) paths
    (fun p hp => (hmem p hp).1) hkept ((pairwise_candidates ht root).sublist hsub)
    (fun p hp t₂ report ht₂ hwork₂ halike₂ => by
      obtain ⟨⟨name, hname⟩, -⟩ := hmem p hp
      exact foretold_folder ht root deprecated maxPathSize p name hname (hkept p hp) t₂ ht₂ hwork₂
        halike₂ report)
    t₁ ht₁ hfolders.working hbelow {}
  refine ⟨report, after, ?_, fun hnone => ?_⟩
  · rw [deleteDeprecated, String.isEmpty_eq_false_iff.mpr hdeprecated, if_neg Bool.false_ne_true,
      hlist₁]
    exact heq
  · rw [deleteDeprecated, String.isEmpty_eq_false_iff.mpr hdeprecated, if_neg Bool.false_ne_true,
      hlist]
    exact hdone.same hnone

end Candidates

end SchemaRename
