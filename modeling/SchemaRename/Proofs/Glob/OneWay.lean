import SchemaRename.Fetch
import SchemaRename.Proofs.FileTree.PathOrder
import SchemaRename.Proofs.Glob.Listing

/-!
# One Way to Every File

When a search finds no path twice, and an expression selects no file twice.

A file can be found as often as there are ways to share out its path among the
steps of a pattern. A step that is no double star takes one name, and a step
without wildcards the text it has, so only double stars leave a choice. One of
them is no choice either: how many folders it stands for is settled by what is
left for the steps behind it. That also holds for several of them in a row,
since the search drops all but the last. With another step between two of them
there can be two ways to a file, and the search goes both.

A wildcard behind a dot is the other case. It is tried on the dots of a folder
too, and a step that stays in the folder or leaves it again is a second way to
what is there.

The files that an expression selects are put in order and are not thinned out.
So a file is listed as often as it is found.

## Main definitions

* `Step.fitsDots`: Steps that stand for the dots of a folder.
* `inOneRun`: Steps in which the recursive ones stand together.
* `least`, `Adds`: How many names some steps add to a path, and which.
* `FindsBelow`, `FindsOnce`: What is said about the three searches at once.
* `isOneWay`: Expressions that leave one way to every file.

## Theorems

* `findsBelow`: Where the paths that are found lie.
* `findsOnce`: A search whose recursive steps stand together finds no location
  twice.
* `steps_expressionPattern`: The steps of an expression below a folder.
* `expandExpression_in_order`: The files that an expression selects.
* `expandExpression_lists_twice`: An expression that selects a file twice.
* `pairwise_lt_defaultExpressions`: The expressions of a run that is given none.
-/

namespace SchemaRename

namespace Glob

theorem Token.eq_of_char?_eq_some {token : Token} {c : Char} (h : token.char? = some c) :
    token = .char c := by
  cases token <;> simp_all [char?]

namespace Step

/-- Whether a step is tried on the dots that every folder has, and fits them. -/
def fitsDots (s : Step) : Bool :=
  s.literal?.isNone && s.tokens.head? == some (.char '.') && ["..", "."].any s.fits

/-- How many names a step adds to a path, unless it is recursive. -/
def width (s : Step) : Nat :=
  match s.literal? with
  | some name => ([name].filter fun n => n != "." && n != "").length
  | none => 1

theorem width_le_one (s : Step) : s.width ≤ 1 := by
  rw [width]
  split
  · exact List.length_filter_le _ _
  · exact Nat.le_refl 1

theorem tokens_of_literal (s : Step) (name : String) (h : s.literal? = some name) :
    s.tokens = name.toList.map .char := by
  rw [literal?, Option.map_eq_some_iff] at h
  obtain ⟨cs, hcs, rfl⟩ := h
  rw [String.toList_ofList]
  generalize s.tokens = tokens at hcs
  induction tokens generalizing cs with
  | nil =>
      cases hcs
      rfl
  | cons token tokens ih =>
      rw [List.mapM_cons] at hcs
      simp only [Option.pure_def, Option.bind_eq_bind, Option.bind_eq_some_iff,
        Option.some.injEq] at hcs
      obtain ⟨c, hc, rest, hrest, rfl⟩ := hcs
      rw [Token.eq_of_char?_eq_some hc, ih rest hrest, List.map_cons]

/-- A step without wildcards fits its text only. -/
theorem eq_of_fits_literal (s : Step) (text name : String) (h : s.literal? = some text)
    (hfits : s.fits name = true) : name = text := by
  rw [fits, tokens_of_literal s text h] at hfits
  have hlist : ∀ cs ds : List Char, fitsName (cs.map .char) ds = true → ds = cs := by
    intro cs
    induction cs with
    | nil =>
        intro ds hds
        simpa [fitsName] using hds
    | cons c cs ih =>
        intro ds hds
        cases ds with
        | nil => simp [fitsName] at hds
        | cons d ds =>
            simp only [List.map_cons, fitsName, Token.fits, Bool.and_eq_true, beq_iff_eq] at hds
            rw [hds.1, ih ds hds.2]
  exact String.toList_inj.mp (hlist _ _ hfits)

theorem isRecursive_of_literal (s : Step) (text : String) (h : s.literal? = some text) :
    s.isRecursive = false := by
  rw [isRecursive, tokens_of_literal s text h, List.contains_eq_mem, decide_eq_false_iff_not]
  intro hmem
  obtain ⟨c, -, hc⟩ := List.mem_map.mp hmem
  cases hc

/-- A step that a name fits adds one name. -/
theorem width_of_fits (s : Step) (name : String) (hname : IsFileName name)
    (h : s.fits name = true) : s.width = 1 := by
  rw [width]
  cases hliteral : s.literal? with
  | none => rfl
  | some text =>
      obtain rfl := eq_of_fits_literal s text name hliteral h
      simp [hname.ne_dot, hname.ne_empty]

end Step

/-- The steps behind the recursive ones in front. -/
def behindRecursive (steps : List Step) : List Step :=
  steps.dropWhile (·.isRecursive)

/-- Of the recursive steps in front only the last one counts. -/
theorem lastRecursive_cons (step : Step) (hstep : step.isRecursive = true) (steps : List Step) :
    ∃ last, last.isRecursive = true ∧
      lastRecursive (step :: steps) = last :: behindRecursive steps ∧ last ∈ step :: steps := by
  induction steps generalizing step with
  | nil => exact ⟨step, hstep, rfl, List.mem_cons_self⟩
  | cons next steps ih =>
      rw [lastRecursive, behindRecursive, List.dropWhile_cons]
      split
      · next hnext =>
          obtain ⟨last, hlast, heq, hmem⟩ := ih next hnext
          exact ⟨last, hlast, heq, List.mem_cons_of_mem _ hmem⟩
      · exact ⟨step, hstep, rfl, List.mem_cons_self⟩

/-- The least number of names that some steps add to a path. The two stars go
    down one level at least. -/
def least : List Step → Nat
  | [] => 0
  | step :: steps => if step.isRecursive then max 1 (least steps) else step.width + least steps

theorem least_recursive (step : Step) (hstep : step.isRecursive = true) (steps : List Step) :
    least (step :: steps) = max 1 (least (behindRecursive steps)) := by
  rw [least, if_pos hstep]
  induction steps with
  | nil => rfl
  | cons next steps ih =>
      rw [behindRecursive, List.dropWhile_cons]
      split
      · next hnext =>
          rw [least, if_pos hnext, ih, behindRecursive]
          omega
      · rfl

theorem least_cons_le (step : Step) (steps : List Step) :
    least (step :: steps) ≤ least steps + 1 := by
  have hwidth := step.width_le_one
  rw [least]
  split <;> omega

theorem mem_of_mem_behindRecursive {steps : List Step} {step : Step}
    (h : step ∈ behindRecursive steps) : step ∈ steps :=
  (List.dropWhile_sublist _).mem h

/-- Whether the recursive steps stand together, with no other step between
    them. -/
def inOneRun : List Step → Bool
  | [] => true
  | step :: steps =>
    if step.isRecursive then (behindRecursive steps).all (!·.isRecursive) else inOneRun steps

theorem inOneRun_of_none (steps : List Step) (h : ∀ step ∈ steps, step.isRecursive = false) :
    inOneRun steps = true := by
  induction steps with
  | nil => rfl
  | cons step steps ih =>
      rw [inOneRun, if_neg (by simp [h step List.mem_cons_self])]
      exact ih fun s hs => h s (List.mem_cons_of_mem _ hs)

/-- Names that a search with some steps can add to the path it starts from. -/
structure Adds (steps : List Step) (names : List String) : Prop where
  least_le : least steps ≤ names.length
  exact : (∀ step ∈ steps, step.isRecursive = false) → names.length = least steps
  dots : (∀ step ∈ steps, step.literal? ≠ some "..") → ".." ∉ names

namespace Adds

theorem nil : Adds [] [] :=
  ⟨Nat.le_refl 0, fun _ => rfl, fun _ => List.not_mem_nil⟩

variable {step : Step} {steps : List Step} {names : List String}

/-- A step without wildcards adds its text. -/
theorem literal (h : Adds steps names) (text : String) (hstep : step.literal? = some text) :
    Adds (step :: steps) ([text].filter (fun n => n != "." && n != "") ++ names) := by
  have hleast : least (step :: steps) =
      ([text].filter fun n => n != "." && n != "").length + least steps := by
    rw [least, if_neg (by simp [step.isRecursive_of_literal text hstep]), Step.width, hstep]
  refine ⟨?_, fun hall => ?_, fun hall => ?_⟩
  · rw [hleast, List.length_append]
    exact Nat.add_le_add_left h.least_le _
  · rw [hleast, List.length_append, h.exact fun s hs => hall s (List.mem_cons_of_mem _ hs)]
  · rw [List.mem_append, not_or]
    refine ⟨fun hmem => ?_, h.dots fun s hs => hall s (List.mem_cons_of_mem _ hs)⟩
    have heq := List.mem_singleton.mp (List.mem_of_mem_filter hmem)
    exact hall step List.mem_cons_self (by rw [hstep, heq])

/-- A step that is not recursive adds a name that fits. -/
theorem name (h : Adds steps names) (hstep : step.isRecursive = false) (name : String)
    (hname : IsFileName name) (hfits : step.fits name = true) :
    Adds (step :: steps) (name :: names) := by
  have hleast : least (step :: steps) = least steps + 1 := by
    rw [least, if_neg (by simp [hstep]), step.width_of_fits name hname hfits, Nat.add_comm]
  refine ⟨?_, fun hall => ?_, fun hall => ?_⟩
  · rw [hleast, List.length_cons]
    exact Nat.succ_le_succ h.least_le
  · rw [hleast, List.length_cons, h.exact fun s hs => hall s (List.mem_cons_of_mem _ hs)]
  · rw [List.mem_cons, not_or]
    exact ⟨hname.ne_dots.symm, h.dots fun s hs => hall s (List.mem_cons_of_mem _ hs)⟩

/-- A recursive step adds any name in front of what comes behind it, and may
    add more. -/
theorem recursive (hstep : step.isRecursive = true) (name : String) (hname : IsFileName name)
    (hleast : least (behindRecursive steps) ≤ names.length + 1)
    (hdots : (∀ s ∈ behindRecursive steps, s.literal? ≠ some "..") → ".." ∉ names) :
    Adds (step :: steps) (name :: names) := by
  refine ⟨?_, fun hall => ?_, fun hall => ?_⟩
  · rw [least_recursive step hstep, List.length_cons]
    omega
  · rw [hall step List.mem_cons_self] at hstep
    cases hstep
  · rw [List.mem_cons, not_or]
    exact ⟨hname.ne_dots.symm, hdots fun s hs =>
      hall s (List.mem_cons_of_mem _ (mem_of_mem_behindRecursive hs))⟩

end Adds

/-- Steps that lead down: none fits the dots of a folder, and what is looked up
    is a single piece. -/
def LeadDown (steps : List Step) : Prop :=
  ∀ step ∈ steps, step.fitsDots = false ∧ ∀ text, step.literal? = some text → '/' ∉ text.toList

theorem LeadDown.tail {step : Step} {steps : List Step} (h : LeadDown (step :: steps)) :
    LeadDown steps :=
  fun s hs => h s (List.mem_cons_of_mem _ hs)

theorem LeadDown.behindRecursive {steps : List Step} (h : LeadDown steps) :
    LeadDown (behindRecursive steps) :=
  fun s hs => h s (mem_of_mem_behindRecursive hs)

section Walk

variable {t : FileTree} (foldersOnly : Bool) (fuel : Nat)

/-- A step that is not looked up is tried on the names of the folder. -/
theorem below_tried (step : Step) (steps : List Step) (folder : Path)
    (hliteral : step.literal? = none) (hdots : step.fitsDots = false) :
    below t foldersOnly (fuel + 1) (step :: steps) folder =
      (namesIn t folder).flatMap fun name =>
        tried t foldersOnly fuel (step :: steps) (inFolder folder name) := by
  have hspecials : (if step.tokens.head? == some (.char '.') then
      ["..", "."].filter step.fits else []) = [] := by
    split
    · next hhead =>
        rw [Step.fitsDots, hliteral, hhead, Option.isNone_none, Bool.true_and, Bool.true_and,
          List.any_eq_false] at hdots
        exact List.filter_eq_nil_iff.mpr hdots
    · rfl
  rw [below]
  simp only [hliteral, hspecials, List.flatMap_nil, List.nil_append]
  rw [namesIn]
  cases t.isFolder folder with
  | false => rfl
  | true =>
      cases t.list folder with
      | error e => rfl
      | ok names => rfl

/-- A step that is not recursive, tried on a name. -/
theorem tried_name (step : Step) (steps : List Step) (folder : Path) (name : String)
    (hname : IsFileName name) (hstep : step.isRecursive = false) :
    tried t foldersOnly (fuel + 1) (step :: steps) (inFolder folder name) =
      if step.fits name then reached t foldersOnly fuel steps (inFolder folder name) else [] := by
  rw [tried]
  simp only [hstep, Bool.false_eq_true, if_false, fileName?_inFolder folder name hname,
    Option.any_some]

/-- What is found at a name behind a recursive step: the name itself if no step
    is left, and otherwise what the next step leads to, if the name fits. -/
inductive FoundHere (t : FileTree) (foldersOnly : Bool) (fuel : Nat) (name : String) (path : Path) :
    List Step → List Path → Prop where
  | nothing (behind : List Step) : FoundHere t foldersOnly fuel name path behind []
  | self : FoundHere t foldersOnly fuel name path [] [path]
  | next (step : Step) (steps : List Step) (hfits : step.fits name = true) :
    FoundHere t foldersOnly fuel name path (step :: steps) (reached t foldersOnly fuel steps path)

/-- A recursive step, tried on a name: the step behind it is tried there, and
    the search goes on below the name. -/
theorem tried_recursive (step : Step) (steps : List Step) (folder : Path) (name : String)
    (hname : IsFileName name) (hstep : step.isRecursive = true) :
    ∃ here deeper last, tried t foldersOnly (fuel + 1) (step :: steps) (inFolder folder name) =
        here ++ deeper ∧
      FoundHere t foldersOnly fuel name (inFolder folder name) (behindRecursive steps) here ∧
      (deeper = [] ∨ deeper = below t foldersOnly fuel (last :: behindRecursive steps)
        (inFolder folder name)) ∧
      last.isRecursive = true ∧ last ∈ step :: steps := by
  obtain ⟨last, hlast, heq, hmem⟩ := lastRecursive_cons step hstep steps
  rw [tried]
  simp only [hstep, if_true, heq, List.tail_cons, fileName?_inFolder folder name hname,
    Option.any_some]
  cases behindRecursive steps with
  | nil =>
      cases t.isFolder (inFolder folder name) with
      | false => exact ⟨[], [], last, rfl, .nothing _, .inl rfl, hlast, hmem⟩
      | true => exact ⟨[inFolder folder name], _, last, rfl, .self, .inr rfl, hlast, hmem⟩
  | cons next rest =>
      refine ⟨_, _, last, rfl, ?_, ?_, hlast, hmem⟩
      · split
        · next hfits => exact .next next rest hfits
        · exact .nothing _
      · split
        · exact .inr rfl
        · exact .inl rfl

/-- A path that lies below a folder as some steps lead there. -/
def LiesBelow (t : FileTree) (folder : Path) (steps : List Step) (p : Path) : Prop :=
  ∃ names, t.location p = t.location folder ++ names ∧ Adds steps names

/-- What is reached without a step is the path itself. -/
theorem eq_of_mem_reached_nil (path p : Path) (h : p ∈ reached t foldersOnly fuel [] path) :
    p = path := by
  rw [reached] at h
  split at h
  · cases h
  · exact List.mem_singleton.mp h

/-- Searches with some fuel that find nothing but what lies below a folder. -/
structure FindsBelow (t : FileTree) (foldersOnly : Bool) (fuel : Nat) : Prop where
  below : ∀ steps folder, LeadDown steps → ∀ p ∈ Glob.below t foldersOnly fuel steps folder,
    LiesBelow t folder steps p
  reached : ∀ steps folder, LeadDown steps → ∀ p ∈ Glob.reached t foldersOnly fuel steps folder,
    LiesBelow t folder steps p
  tried : ∀ steps folder, LeadDown steps → ∀ name, IsFileName name →
    ∀ p ∈ Glob.tried t foldersOnly fuel steps (inFolder folder name),
      ∃ names, t.location p = t.location folder ++ name :: names ∧ Adds steps (name :: names)

section Step

variable {foldersOnly fuel} (h : FindsBelow t foldersOnly fuel)
include h

theorem FindsBelow.below_succ (ht : t.IsOrderly) (steps : List Step) (folder : Path)
    (hsteps : LeadDown steps) (p : Path)
    (hp : p ∈ Glob.below t foldersOnly (fuel + 1) steps folder) : LiesBelow t folder steps p := by
  cases steps with
  | nil =>
      rw [Glob.below] at hp
      cases hp
  | cons step steps =>
      obtain ⟨hdots, hslash⟩ := hsteps step List.mem_cons_self
      cases hliteral : step.literal? with
      | some text =>
          rw [Glob.below] at hp
          simp only [hliteral] at hp
          split at hp
          · obtain ⟨names, hlocation, hadds⟩ := h.reached steps _ hsteps.tail p hp
            rw [location_inFolder t folder text (hslash text hliteral),
              List.append_assoc] at hlocation
            exact ⟨_, hlocation, hadds.literal text hliteral⟩
          · cases hp
      | none =>
          rw [below_tried foldersOnly fuel step steps folder hliteral hdots,
            List.mem_flatMap] at hp
          obtain ⟨name, hname, hp⟩ := hp
          obtain ⟨names, hlocation, hadds⟩ := h.tried _ folder hsteps name
            (isFileName_of_mem_namesIn ht.named folder name hname) p hp
          exact ⟨_, hlocation, hadds⟩

theorem FindsBelow.reached_succ (steps : List Step) (folder : Path) (hsteps : LeadDown steps)
    (p : Path) (hp : p ∈ Glob.reached t foldersOnly (fuel + 1) steps folder) :
    LiesBelow t folder steps p := by
  cases steps with
  | nil =>
      obtain rfl := eq_of_mem_reached_nil foldersOnly _ folder p hp
      exact ⟨[], (List.append_nil _).symm, .nil⟩
  | cons step steps =>
      rw [reached_cons] at hp
      exact h.below _ folder hsteps p hp

/-- What is found at a name. With no recursive step left it is as far down as
    the steps lead. -/
theorem FindsBelow.here {name : String} {path : Path} {behind : List Step} {here : List Path}
    (hhere : FoundHere t foldersOnly fuel name path behind here) (hname : IsFileName name)
    (hbehind : LeadDown behind) (p : Path) (hp : p ∈ here) :
    ∃ names, t.location p = t.location path ++ names ∧ least behind ≤ names.length + 1 ∧
      ((∀ s ∈ behind, s.isRecursive = false) → names.length < max 1 (least behind)) ∧
      ((∀ s ∈ behind, s.literal? ≠ some "..") → ".." ∉ names) := by
  cases hhere with
  | nothing => cases hp
  | self =>
      rw [List.mem_singleton.mp hp]
      exact ⟨[], (List.append_nil _).symm, Nat.zero_le _, fun _ => by simp,
        fun _ => List.not_mem_nil⟩
  | next step steps hfits =>
      obtain ⟨names, hlocation, hadds⟩ := h.reached steps path hbehind.tail p hp
      refine ⟨names, hlocation, ?_, fun hnone => ?_, fun hall => ?_⟩
      · exact Nat.le_trans (least_cons_le step steps) (Nat.succ_le_succ hadds.least_le)
      · have hexact := hadds.exact fun s hs => hnone s (List.mem_cons_of_mem _ hs)
        rw [least, if_neg (by simp [hnone step List.mem_cons_self]),
          step.width_of_fits name hname hfits]
        omega
      · exact hadds.dots fun s hs => hall s (List.mem_cons_of_mem _ hs)

/-- What is found below a name is further down. -/
theorem FindsBelow.deeper {last : Step} (hlast : last.isRecursive = true) {behind : List Step}
    (hsteps : LeadDown (last :: behind)) (path p : Path)
    (hp : p ∈ Glob.below t foldersOnly fuel (last :: behind) path) :
    ∃ names, t.location p = t.location path ++ names ∧ max 1 (least behind) ≤ names.length ∧
      ((∀ s ∈ behind, s.literal? ≠ some "..") → ".." ∉ names) := by
  obtain ⟨names, hlocation, hadds⟩ := h.below _ path hsteps p hp
  have hleast := hadds.least_le
  rw [least, if_pos hlast] at hleast
  refine ⟨names, hlocation, hleast, fun hall => ?_⟩
  refine hadds.dots (List.forall_mem_cons.mpr ⟨fun hdots => ?_, hall⟩)
  rw [last.isRecursive_of_literal _ hdots] at hlast
  cases hlast

theorem FindsBelow.tried_succ (steps : List Step) (folder : Path) (hsteps : LeadDown steps)
    (name : String) (hname : IsFileName name) (p : Path)
    (hp : p ∈ Glob.tried t foldersOnly (fuel + 1) steps (inFolder folder name)) :
    ∃ names, t.location p = t.location folder ++ name :: names ∧ Adds steps (name :: names) := by
  have hpath := location_inFolder_name t folder name hname
  cases steps with
  | nil =>
      rw [Glob.tried] at hp
      cases hp
  | cons step steps =>
      cases hstep : step.isRecursive with
      | false =>
          rw [tried_name foldersOnly fuel step steps folder name hname hstep] at hp
          split at hp
          · next hfits =>
              obtain ⟨names, hlocation, hadds⟩ := h.reached steps _ hsteps.tail p hp
              rw [hpath, List.append_assoc] at hlocation
              exact ⟨names, hlocation, hadds.name hstep name hname hfits⟩
          · cases hp
      | true =>
          obtain ⟨here, deeper, last, heq, hhere, hdeeper, hlast, hmem⟩ :=
            tried_recursive foldersOnly fuel step steps folder name hname hstep
          have hbehind := hsteps.tail.behindRecursive
          rw [heq, List.mem_append] at hp
          -- A name that the double stars take is a level that the steps behind them do not need.
          rcases hp with hp | hp
          · obtain ⟨names, hlocation, hleast, -, hdots⟩ := h.here hhere hname hbehind p hp
            rw [hpath, List.append_assoc] at hlocation
            exact ⟨names, hlocation, .recursive hstep name hname hleast hdots⟩
          · rcases hdeeper with rfl | rfl
            · cases hp
            · obtain ⟨names, hlocation, hleast, hdots⟩ := h.deeper hlast
                (List.forall_mem_cons.mpr ⟨hsteps last hmem, hbehind⟩) _ p hp
              rw [hpath, List.append_assoc] at hlocation
              exact ⟨names, hlocation, .recursive hstep name hname (by omega) hdots⟩

end Step

/-- All that a search finds lies below its folder. The induction is on the fuel,
    which the three searches use up together. -/
theorem findsBelow (ht : t.IsOrderly) : FindsBelow t foldersOnly fuel := by
  induction fuel with
  | zero =>
      refine ⟨fun steps folder _ p hp => ?_, fun steps folder _ p hp => ?_,
        fun steps folder _ name _ p hp => ?_⟩
      · rw [below] at hp
        cases hp
      · cases steps with
        | nil =>
            obtain rfl := eq_of_mem_reached_nil foldersOnly _ folder p hp
            exact ⟨[], (List.append_nil _).symm, .nil⟩
        | cons step steps =>
            rw [reached] at hp
            cases hp
      · rw [tried] at hp
        cases hp
  | succ fuel ih => exact ⟨ih.below_succ ht, ih.reached_succ, ih.tried_succ⟩

/-- Searches with some fuel that find no location twice, if the recursive steps
    stand together. -/
structure FindsOnce (t : FileTree) (foldersOnly : Bool) (fuel : Nat) : Prop where
  below : ∀ steps folder, LeadDown steps → inOneRun steps = true →
    ((Glob.below t foldersOnly fuel steps folder).map t.location).Nodup
  reached : ∀ steps folder, LeadDown steps → inOneRun steps = true →
    ((Glob.reached t foldersOnly fuel steps folder).map t.location).Nodup
  tried : ∀ steps folder, LeadDown steps → inOneRun steps = true → ∀ name, IsFileName name →
    ((Glob.tried t foldersOnly fuel steps (inFolder folder name)).map t.location).Nodup

theorem nodup_reached_nil (path : Path) :
    ((reached t foldersOnly fuel [] path).map t.location).Nodup := by
  rw [reached]
  split
  · exact List.nodup_nil
  · exact List.nodup_singleton _

section OnceStep

variable {foldersOnly fuel} (h : FindsOnce t foldersOnly fuel)
include h

/-- The names of a folder lead to different locations. -/
theorem FindsOnce.below_succ (ht : t.IsOrderly) (steps : List Step) (folder : Path)
    (hsteps : LeadDown steps) (hrun : inOneRun steps = true) :
    ((Glob.below t foldersOnly (fuel + 1) steps folder).map t.location).Nodup := by
  cases steps with
  | nil =>
      rw [Glob.below]
      exact List.nodup_nil
  | cons step steps =>
      cases hliteral : step.literal? with
      | some text =>
          rw [inOneRun, if_neg (by simp [step.isRecursive_of_literal text hliteral])] at hrun
          rw [Glob.below]
          simp only [hliteral]
          split
          · exact h.reached steps _ hsteps.tail hrun
          · exact List.nodup_nil
      | none =>
          rw [below_tried foldersOnly fuel step steps folder hliteral
            (hsteps step List.mem_cons_self).1, List.map_flatMap, List.nodup_flatMap]
          refine ⟨fun name hname => h.tried _ folder hsteps hrun name
            (isFileName_of_mem_namesIn ht.named folder name hname), ?_⟩
          have hnames : ∀ name ∈ namesIn t folder, IsFileName name :=
            isFileName_of_mem_namesIn ht.named folder
          -- Two names lead to locations that differ at the level of the folder.
          refine (nodup_namesIn t ht.nodup folder).imp_of_mem fun {a b} ha hb hne => ?_
          simp only [Function.onFun, List.disjoint_left, List.mem_map]
          rintro l ⟨p, hp, rfl⟩ ⟨q, hq, heq⟩
          obtain ⟨names, hlocation, -⟩ :=
            (findsBelow foldersOnly fuel ht).tried _ folder hsteps a (hnames a ha) p hp
          obtain ⟨names', hlocation', -⟩ :=
            (findsBelow foldersOnly fuel ht).tried _ folder hsteps b (hnames b hb) q hq
          rw [hlocation, hlocation'] at heq
          exact hne (List.cons.inj (List.append_cancel_left heq)).1.symm

theorem FindsOnce.reached_succ (steps : List Step) (folder : Path) (hsteps : LeadDown steps)
    (hrun : inOneRun steps = true) :
    ((Glob.reached t foldersOnly (fuel + 1) steps folder).map t.location).Nodup := by
  cases steps with
  | nil => exact nodup_reached_nil foldersOnly _ folder
  | cons step steps =>
      rw [reached_cons]
      exact h.below _ folder hsteps hrun

theorem FindsOnce.here {name : String} {path : Path} {behind : List Step} {here : List Path}
    (hhere : FoundHere t foldersOnly fuel name path behind here) (hbehind : LeadDown behind)
    (hnone : ∀ s ∈ behind, s.isRecursive = false) : (here.map t.location).Nodup := by
  cases hhere with
  | nothing => exact List.nodup_nil
  | self => exact List.nodup_singleton _
  | next step steps hfits =>
      exact h.reached steps path hbehind.tail
        (inOneRun_of_none steps fun s hs => hnone s (List.mem_cons_of_mem _ hs))

/-- What is found at a name and what is found below it differ in how far down
    they are. -/
theorem FindsOnce.tried_succ (ht : t.IsOrderly) (steps : List Step) (folder : Path)
    (hsteps : LeadDown steps) (hrun : inOneRun steps = true) (name : String)
    (hname : IsFileName name) :
    ((Glob.tried t foldersOnly (fuel + 1) steps (inFolder folder name)).map t.location).Nodup := by
  cases steps with
  | nil =>
      rw [Glob.tried]
      exact List.nodup_nil
  | cons step steps =>
      cases hstep : step.isRecursive with
      | false =>
          rw [inOneRun, if_neg (by simp [hstep])] at hrun
          rw [tried_name foldersOnly fuel step steps folder name hname hstep]
          split
          · exact h.reached steps _ hsteps.tail hrun
          · exact List.nodup_nil
      | true =>
          rw [inOneRun, if_pos hstep, List.all_eq_true] at hrun
          have hnone : ∀ s ∈ behindRecursive steps, s.isRecursive = false := fun s hs => by
            simpa using hrun s hs
          obtain ⟨here, deeper, last, heq, hhere, hdeeper, hlast, hmem⟩ :=
            tried_recursive foldersOnly fuel step steps folder name hname hstep
          have hbehind := hsteps.tail.behindRecursive
          have hlead : LeadDown (last :: behindRecursive steps) :=
            List.forall_mem_cons.mpr ⟨hsteps last hmem, hbehind⟩
          rw [heq, List.map_append, List.nodup_append']
          -- Each part is without repeats, and no location is in both.
          refine ⟨h.here hhere hbehind hnone, ?_, ?_⟩
          · rcases hdeeper with rfl | rfl
            · exact List.nodup_nil
            · refine h.below _ _ hlead ?_
              rw [inOneRun, if_pos hlast, List.all_eq_true]
              exact fun s hs => by simp [hnone s (mem_of_mem_behindRecursive hs)]
          · rcases hdeeper with rfl | rfl
            · exact List.disjoint_nil_right _
            · simp only [List.disjoint_left, List.mem_map]
              rintro l ⟨p, hp, rfl⟩ ⟨q, hq, hsame⟩
              have hfinds := findsBelow foldersOnly fuel ht
              obtain ⟨names, hlocation, -, hlt, -⟩ := hfinds.here hhere hname hbehind p hp
              obtain ⟨names', hlocation', hle, -⟩ := hfinds.deeper hlast hlead _ q hq
              rw [hlocation, hlocation'] at hsame
              have hlength := congrArg List.length (List.append_cancel_left hsame)
              have := hlt hnone
              omega

end OnceStep

/-- A search whose recursive steps stand together finds no location twice. -/
theorem findsOnce (ht : t.IsOrderly) : FindsOnce t foldersOnly fuel := by
  induction fuel with
  | zero =>
      refine ⟨fun steps folder _ _ => ?_, fun steps folder _ _ => ?_,
        fun steps folder _ _ name _ => ?_⟩
      · rw [below]
        exact List.nodup_nil
      · cases steps with
        | nil => exact nodup_reached_nil foldersOnly _ folder
        | cons step steps =>
            rw [reached]
            exact List.nodup_nil
      · rw [tried]
        exact List.nodup_nil
  | succ fuel ih => exact ⟨ih.below_succ ht, ih.reached_succ, ih.tried_succ ht⟩

end Walk

section Text

/-- The steps of a pattern's text. -/
def stepsOf (pattern : List Char) : Except Fault (List Step) :=
  (cutAtSlashes pattern).mapM fun piece => return Step.mk (← tokens piece)

/-- What a token in front of more tokens comes from. -/
theorem cons_of_more {more : Except Fault (List Token)} {token : Token} {text : List Char}
    (h : (do return token :: (← more)) = .ok (text.map Token.char)) :
    ∃ c rest, token = .char c ∧ text = c :: rest ∧ more = .ok (rest.map .char) := by
  cases more with
  | error fault => cases h
  | ok parts =>
      cases text with
      | nil => cases h
      | cons c rest =>
          obtain ⟨htoken, hparts⟩ := List.cons.inj (Except.ok.inj h)
          exact ⟨c, rest, htoken, rfl, congrArg Except.ok hparts⟩

/-- A text that is read as characters only is made of them. -/
theorem eq_of_tokensFrom_chars (fuel position : Nat) (atStart : Bool) (piece text : List Char)
    (hfuel : piece.length ≤ fuel)
    (h : tokensFrom fuel position atStart piece = .ok (text.map .char)) : piece = text := by
  induction fuel generalizing position atStart piece text with
  | zero =>
      rw [List.length_eq_zero_iff.mp (Nat.le_zero.mp hfuel)] at h ⊢
      rw [tokensFrom, Except.ok.injEq] at h
      exact (List.map_eq_nil_iff.mp h.symm).symm
  | succ fuel ih =>
      cases piece with
      | nil =>
          rw [tokensFrom, Except.ok.injEq] at h
          exact (List.map_eq_nil_iff.mp h.symm).symm
      | cons c piece =>
          unfold tokensFrom at h
          simp only at h
          split at h
          · obtain ⟨_, _, htoken, -⟩ := cons_of_more h
            cases htoken
          · split at h
            · cases h
            · split at h
              · obtain ⟨_, _, htoken, -⟩ := cons_of_more h
                cases htoken
              · split at h
                · cases h
                · split at h
                  · obtain ⟨_, _, htoken, -⟩ := cons_of_more h
                    cases htoken
                  · obtain ⟨_, _, htoken, -⟩ := cons_of_more h
                    cases htoken
                  · cases h
          · split at h
            · cases h
            · obtain ⟨_, _, htoken, -⟩ := cons_of_more h
              cases htoken
          · obtain ⟨d, rest, htoken, rfl, hrest⟩ := cons_of_more h
            rw [Token.char.inj htoken, ih _ _ piece rest (by simpa using hfuel) hrest]
theorem cutAtSlashes_append (front behind : List Char) :
    cutAtSlashes (front ++ '/' :: behind) = front.splitOn '/' ++ cutAtSlashes behind := by
  have hne : behind.splitOn '/' ≠ [] := List.splitOn_ne_nil _ _
  rw [cutAtSlashes, cutAtSlashes, List.splitOn_append_cons_self]
  simp only [List.getLast?_append_of_ne_nil _ hne]
  split
  · rw [List.dropLast_append_of_ne_nil hne]
  · rfl

/-- A step that is looked up is spelled as a piece of the pattern. -/
theorem literal_mem_of_stepsOf (pattern : List Char) (steps : List Step)
    (h : stepsOf pattern = .ok steps) (step : Step) (hstep : step ∈ steps) (text : String)
    (htext : step.literal? = some text) : text.toList ∈ cutAtSlashes pattern := by
  rw [stepsOf] at h
  generalize cutAtSlashes pattern = pieces at h
  induction pieces generalizing steps with
  | nil =>
      cases h
      cases hstep
  | cons piece pieces ih =>
      rw [List.mapM_cons] at h
      cases hpiece : tokens piece with
      | error fault =>
          rw [hpiece] at h
          cases h
      | ok parts =>
          cases hpieces : (pieces.mapM fun piece => return Step.mk (← tokens piece) :
              Except Fault (List Step)) with
          | error fault =>
              rw [hpiece, hpieces] at h
              cases h
          | ok rest =>
              rw [hpiece, hpieces] at h
              cases h
              rcases List.mem_cons.mp hstep with rfl | hstep
              · have hparts : parts = text.toList.map .char :=
                  (Step.mk parts).tokens_of_literal text htext
                rw [tokens, hparts] at hpiece
                rw [eq_of_tokensFrom_chars _ _ _ _ _ (Nat.le_refl _) hpiece]
                exact List.mem_cons_self
              · exact List.mem_cons_of_mem _ (ih rest hstep hpieces)

/-- The steps and the start of a search. -/
theorem search_ok (pattern : String) (s : Search) (h : search pattern = .ok s) :
    ∃ steps, stepsOf (if pattern.toList.head? == some '/' then pattern.toList.tail
        else pattern.toList) = .ok steps ∧
      s.steps = (if pattern.toList.head? == some '/' && pattern.toList.tail.isEmpty then
        [Step.escaped ""] else steps) ∧
      (s.start = ⟨"/"⟩ ∨ s.start = ⟨"."⟩) := by
  unfold search at h
  simp only [bind, Except.bind] at h
  split at h
  · cases h
  · split at h
    · cases h
    · next steps hsteps =>
        cases h
        refine ⟨steps, hsteps, ?_, ?_⟩
        · cases pattern.toList.head? == some '/' <;> rfl
        · cases pattern.toList.head? == some '/'
          · exact .inr rfl
          · exact .inl rfl

theorem stepsOf_append (front behind : List Char) (steps : List Step)
    (h : stepsOf (front.flatMap spell ++ '/' :: behind) = .ok steps) :
    ∃ own, stepsOf behind = .ok own ∧
      steps = ((front.splitOn '/').map String.ofList).map Step.escaped ++ own := by
  rw [stepsOf, cutAtSlashes_append, splitOn_spell, List.mapM_append, steps_spell] at h
  cases hown : stepsOf behind with
  | error fault =>
      rw [stepsOf] at hown
      rw [hown] at h
      cases h
  | ok own =>
      rw [stepsOf] at hown
      rw [hown] at h
      exact ⟨own, rfl, (Except.ok.inj h).symm⟩

/-- The steps of an expression below a folder: the pieces of the folder, and
    then its own. -/
theorem steps_expressionPattern (input : Path) (expression : String) (s : Search)
    (h : search (expressionPattern input expression) = .ok s) :
    ∃ (pieces : List String) (steps : List Step), (∀ piece ∈ pieces, piece ∈ input.pieces) ∧
      stepsOf (relativeExpression expression.toList) = .ok steps ∧
      s.steps = pieces.map Step.escaped ++ steps := by
  have htext : (expressionPattern input expression).toList =
      input.text.toList.flatMap spell ++ '/' :: relativeExpression expression.toList := by
    rw [expressionPattern, String.toList_append, String.toList_append, toList_escape,
      List.append_assoc, String.toList_ofList, String.toList_ofList, List.singleton_append]
  obtain ⟨steps, hsteps, heq, -⟩ := search_ok _ s h
  rw [htext] at hsteps heq
  cases hinput : input.text.toList with
  | nil =>
      -- Without a folder in front the expression is taken from the root.
      rw [hinput] at hsteps heq
      simp only [List.flatMap_nil, List.nil_append, List.head?_cons, beq_self_eq_true, if_true,
        List.tail_cons, Bool.true_and] at hsteps heq
      cases hrelative : relativeExpression expression.toList with
      | nil =>
          rw [hrelative] at hsteps heq
          refine ⟨[""], steps, ?_, hsteps, ?_⟩
          · rw [Path.pieces, hinput]
            simp
          · cases hsteps
            exact heq
      | cons c rest =>
          rw [hrelative] at hsteps heq
          exact ⟨[], steps, by simp, hsteps, heq⟩
  | cons c rest =>
      by_cases hc : c = '/'
      · subst hc
        have hspell : ('/' :: rest).flatMap spell = '/' :: rest.flatMap spell := rfl
        rw [hinput, hspell] at hsteps heq
        simp only [List.cons_append, List.head?_cons, beq_self_eq_true, if_true, List.tail_cons,
          Bool.true_and, List.isEmpty_iff, List.append_eq_nil_iff, reduceCtorEq, and_false,
          if_false] at hsteps heq
        obtain ⟨own, hown, rfl⟩ := stepsOf_append rest _ steps hsteps
        refine ⟨_, own, fun piece hpiece => ?_, hown, heq⟩
        have hcut := List.splitOn_append_cons_self (a := '/') [] rest
        rw [List.nil_append, List.splitOn_nil] at hcut
        rw [Path.pieces, hinput, hcut, List.map_append]
        exact List.mem_append_right _ hpiece
      · have hhead : (((c :: rest).flatMap spell ++ '/' ::
            relativeExpression expression.toList).head? == some '/') = false := by
          rw [List.flatMap_cons, spell]
          split <;> simp [hc]
        rw [hinput, hhead] at hsteps heq
        simp only [Bool.false_eq_true, if_false, Bool.false_and] at hsteps heq
        obtain ⟨own, hown, rfl⟩ := stepsOf_append _ _ steps hsteps
        refine ⟨_, own, fun piece hpiece => ?_, hown, heq⟩
        rw [Path.pieces, hinput]
        exact hpiece

/-- An escaped piece is no way to reach the dots of a folder but its own text. -/
theorem fitsDots_escaped (piece : String) : (Step.escaped piece).fitsDots = false := by
  rw [Bool.eq_false_iff]
  intro h
  simp only [Step.fitsDots, Bool.and_eq_true, List.any_cons, List.any_nil, Bool.or_false,
    Bool.or_eq_true, fits_escaped] at h
  obtain ⟨⟨hliteral, -⟩, rfl | rfl⟩ := h
  · exact absurd hliteral (by decide)
  · exact absurd hliteral (by decide)

theorem inOneRun_escaped (pieces : List String) (steps : List Step) :
    inOneRun (pieces.map Step.escaped ++ steps) = inOneRun steps := by
  induction pieces with
  | nil => rfl
  | cons piece pieces ih =>
      rw [List.map_cons, List.cons_append, inOneRun, if_neg (by simp [isRecursive_escaped]), ih]

/-- Whether an expression leaves one way to every file: the double stars stand
    together, and no wildcard stands for the dots of a folder. -/
def isOneWay (expression : String) : Bool :=
  match stepsOf (relativeExpression expression.toList) with
  | .ok steps => steps.all (!·.fitsDots) && inOneRun steps
  | .error _ => false

theorem noSlash_of_mem_cutAtSlashes (pattern : List Char) (piece : List Char)
    (h : piece ∈ cutAtSlashes pattern) : '/' ∉ piece := by
  rw [cutAtSlashes] at h
  refine Text.not_mem_of_mem_splitOn '/' pattern piece ?_
  split at h
  · exact List.dropLast_subset _ h
  · exact h

/-- The search for an expression that leaves one way: its steps lead down, and
    the recursive ones stand together. -/
theorem leadDown_of_isOneWay (input : Path) (expression : String) (s : Search)
    (h : search (expressionPattern input expression) = .ok s)
    (hone : isOneWay expression = true) : LeadDown s.steps ∧ inOneRun s.steps = true := by
  obtain ⟨pieces, steps, hpieces, hsteps, heq⟩ := steps_expressionPattern input expression s h
  rw [isOneWay, hsteps] at hone
  simp only [Bool.and_eq_true, List.all_eq_true, Bool.not_eq_true'] at hone
  obtain ⟨hdots, hrun⟩ := hone
  rw [heq]
  refine ⟨?_, by rw [inOneRun_escaped, hrun]⟩
  intro step hstep
  rcases List.mem_append.mp hstep with hstep | hstep
  · -- The folder in front is looked up piece by piece, whatever is in its name.
    obtain ⟨piece, hpiece, rfl⟩ := List.mem_map.mp hstep
    refine ⟨fitsDots_escaped piece, fun text htext => ?_⟩
    rw [literal?_escaped piece text htext]
    exact Path.noSlash_of_mem_pieces input piece (hpieces piece hpiece)
  · exact ⟨hdots step hstep, fun text htext => noSlash_of_mem_cutAtSlashes _ _
      (literal_mem_of_stepsOf _ _ hsteps step hstep text htext)⟩

/-- An expression without double dots in it, below a folder without double dots,
    leads to paths without double dots. -/
theorem dots_of_mem_find {t : FileTree} (ht : t.IsOrderly) (input : Path) (expression : String)
    (s : Search) (h : search (expressionPattern input expression) = .ok s)
    (hlead : LeadDown s.steps) (hinput : ".." ∉ input.steps)
    (hexpression : "..".toList ∉ cutAtSlashes (relativeExpression expression.toList)) (p : Path)
    (hp : p ∈ s.find t) : ".." ∉ p.steps := by
  obtain ⟨pieces, steps, hpieces, hsteps, heq⟩ := steps_expressionPattern input expression s h
  have hliteral : ∀ step ∈ s.steps, step.literal? ≠ some ".." := by
    intro step hstep htext
    rw [heq] at hstep
    rcases List.mem_append.mp hstep with hstep | hstep
    · obtain ⟨piece, hpiece, rfl⟩ := List.mem_map.mp hstep
      rw [← literal?_escaped piece _ htext] at hpiece
      exact hinput (List.mem_filter.mpr ⟨hpieces _ hpiece, by decide⟩)
    · exact hexpression (literal_mem_of_stepsOf _ _ hsteps step hstep _ htext)
  obtain ⟨names, hlocation, hadds⟩ := (findsBelow s.foldersOnly _ ht).below _ _ hlead p hp
  have hstart : ".." ∉ t.location s.start := by
    have hworking : ".." ∉ t.workingFolder := fun hmem =>
      (FileTree.isFileName_of_isEntryName
        (ht.named _ (by rw [ht.working]; rfl) _ hmem)).ne_dots rfl
    obtain ⟨-, -, -, hroot | hdot⟩ := search_ok _ s h
    · rw [hroot, location_root]
      exact List.not_mem_nil
    · rwa [hdot, location_dot]
  -- The location of a path has all its steps but the dots.
  intro hmem
  have hmem' : ".." ∈ t.location p :=
    List.mem_append_right _ (List.mem_filter.mpr ⟨hmem, by decide⟩)
  rw [hlocation] at hmem'
  exact (List.mem_append.mp hmem').elim hstart (hadds.dots hliteral)

end Text

end Glob

open Glob

theorem not_isFolder_of_isFile (t : FileTree) (p : Path) (h : t.isFile p = true) :
    t.isFolder p = false := by
  unfold FileTree.isFile at h
  unfold FileTree.isFolder
  split at h
  · next heq => rw [heq]
  · cases h

/-- Paths at different locations do not say the same. -/
theorem same_of_location_ne (t : FileTree) (p q : Path) (h : t.location p ≠ t.location q) :
    p.same q = false := by
  rw [Bool.eq_false_iff]
  intro hsame
  obtain ⟨habsolute, hsteps⟩ := Path.steps_of_components_eq p q (beq_iff_eq.mp hsame)
  exact h (by rw [FileTree.location, FileTree.location, FileTree.origin, FileTree.origin,
    habsolute, hsteps])

theorem expandExpression_ok (t : FileTree) (input : Path) (expression : String)
    (files : List Path) (h : expandExpression t input expression = .ok files) :
    ∃ s, search (expressionPattern input expression) = .ok s ∧
      files = inOrder Path.le ((s.find t).filter t.isFile) := by
  unfold expandExpression find at h
  cases hsearch : search (expressionPattern input expression) with
  | error fault =>
      rw [hsearch] at h
      cases h
  | ok s =>
      rw [hsearch] at h
      exact ⟨s, rfl, (Except.ok.inj h).symm⟩

section OneWay

variable {t : FileTree} (ht : t.IsOrderly) (input : Path) (expression : String)
  (hone : isOneWay expression = true) (s : Search)
  (hsearch : search (expressionPattern input expression) = .ok s)
include ht hone hsearch

theorem nodup_locations : (((s.find t).filter t.isFile).map t.location).Nodup := by
  obtain ⟨hlead, hrun⟩ := leadDown_of_isOneWay input expression s hsearch hone
  exact ((findsOnce s.foldersOnly _ ht).below _ _ hlead hrun).sublist
    (List.filter_sublist.map t.location)

/-- No two of the files that are found say the same. -/
theorem pairwise_not_same :
    ((s.find t).filter t.isFile).Pairwise fun p q => p.same q = false :=
  (List.pairwise_map.mp (nodup_locations ht input expression hone s hsearch)).imp
    fun {p q} hne => same_of_location_ne t p q hne

/-- No two of the files that are found are at the same place, if there is
    nothing that leads elsewhere: no link and no double dots. -/
theorem nodup_places (hplain : t.IsPlain) (hinput : ".." ∉ input.steps)
    (hexpression : "..".toList ∉ cutAtSlashes (relativeExpression expression.toList)) :
    (((s.find t).filter t.isFile).map t.place?).Nodup := by
  have hlead := (leadDown_of_isOneWay input expression s hsearch hone).1
  have hplaces : ((s.find t).filter t.isFile).map t.place? =
      (((s.find t).filter t.isFile).map t.location).map some := by
    rw [List.map_map]
    refine List.map_congr_left fun p hp => ?_
    obtain ⟨hfound, hfile⟩ := List.mem_filter.mp hp
    have hdots : ".." ∉ p.steps :=
      dots_of_mem_find ht input expression s hsearch hlead hinput hexpression p hfound
    obtain ⟨l, hplace, -⟩ := (FileTree.isFile_iff hplain p).mp hfile
    rw [hplace, FileTree.place?_eq_location hplain p hdots l hplace]
    rfl
  rw [hplaces]
  exact (nodup_locations ht input expression hone s hsearch).map (Option.some_injective _)

end OneWay

/-- The files that an expression selects are in order. Each is listed as often
    as the search comes across it, and that is once if the expression leaves one
    way to it. -/
theorem expandExpression_in_order (t : FileTree) (ht : t.IsOrderly) (input : Path)
    (expression : String) (files : List Path)
    (h : expandExpression t input expression = .ok files) :
    files.Pairwise (fun p q => p.le q = true) ∧
    (∀ p ∈ files, t.isFile p = true ∧ t.isFolder p = false) ∧
    (∃ found, find t (expressionPattern input expression) = .ok found ∧
      files.Perm (found.filter t.isFile) ∧
      (files.Pairwise (fun p q => p.lt q = true) ↔
        (found.filter t.isFile).Pairwise fun p q => p.same q = false)) ∧
    (isOneWay expression = true → files.Pairwise fun p q => p.lt q = true) ∧
    (isOneWay expression = true → t.IsPlain → ".." ∉ input.steps →
      "..".toList ∉ cutAtSlashes (relativeExpression expression.toList) →
      (files.map t.place?).Nodup) := by
  obtain ⟨s, hsearch, rfl⟩ := expandExpression_ok t input expression files h
  have hperm := inOrder_perm Path.le ((s.find t).filter t.isFile)
  refine ⟨Path.pairwise_inOrder _, fun p hp => ?_, ⟨s.find t, ?_, hperm,
    Path.pairwise_lt_inOrder_iff _⟩, fun hone => ?_, fun hone hplain hinput hexpression => ?_⟩
  · have hfile := (List.mem_filter.mp (hperm.mem_iff.mp hp)).2
    exact ⟨hfile, not_isFolder_of_isFile t p hfile⟩
  · rw [find, hsearch]
    rfl
  · rw [Path.pairwise_lt_inOrder_iff]
    exact pairwise_not_same ht input expression hone s hsearch
  · rw [(hperm.map t.place?).nodup_iff]
    exact nodup_places ht input expression hone s hsearch hplain hinput hexpression

/-- A class in a folder in a folder of the same name. -/
def nestedClass : FileTree :=
  { entries := [(["a"], .folder), (["a", "b"], .folder), (["a", "b", "b"], .folder),
      (["a", "b", "b", "X.cls"], .file (.text "x")),
      (["a", "b", "Y.cls"], .file (.text "y"))] }

theorem isPlain_nestedClass : nestedClass.IsPlain :=
  FileTree.isPlain_of_check nestedClass (by decide +kernel)

theorem expandExpression_in_order_nested :
    ∃ files, expandExpression nestedClass ⟨"."⟩ "./a/**/*.cls" = .ok files ∧ files.length = 2 ∧
      (files.Pairwise fun p q => p.lt q = true) ∧ (files.map nestedClass.place?).Nodup := by
  have hfiles : expandExpression nestedClass ⟨"."⟩ "./a/**/*.cls" =
      .ok [⟨"a/b/Y.cls"⟩, ⟨"a/b/b/X.cls"⟩] := by
    decide +kernel
  obtain ⟨-, -, -, hlt, hplaces⟩ := expandExpression_in_order nestedClass
    isPlain_nestedClass.toIsOrderly _ _ _ hfiles
  exact ⟨_, hfiles, rfl, hlt (by decide +kernel),
    hplaces (by decide +kernel) isPlain_nestedClass (by decide) (by decide +kernel)⟩

/-- With a step between two double stars there are two ways to a file, and it is
    listed twice. -/
theorem expandExpression_lists_twice :
    ¬ ∀ (t : FileTree) (input : Path) (expression : String) (files : List Path), t.IsPlain →
      expandExpression t input expression = .ok files →
      files.Pairwise fun p q => p.lt q = true := by
  intro h
  have hfiles : expandExpression nestedClass ⟨"."⟩ "./a/**/b/**/*.cls" =
      .ok [⟨"a/b/Y.cls"⟩, ⟨"a/b/b/X.cls"⟩, ⟨"a/b/b/X.cls"⟩] := by
    decide +kernel
  have hlt := h nestedClass ⟨"."⟩ "./a/**/b/**/*.cls" _ isPlain_nestedClass hfiles
  exact absurd hlt (by decide +kernel)

/-- The expressions of a run that is given none select no file twice. -/
theorem pairwise_lt_defaultExpressions (t : FileTree) (ht : t.IsOrderly) (input : Path)
    (expression : String) (hexpression : expression ∈ defaultExpressions) (files : List Path)
    (h : expandExpression t input expression = .ok files) :
    files.Pairwise fun p q => p.lt q = true := by
  have hone : ∀ expression ∈ defaultExpressions, isOneWay expression = true := by decide +kernel
  obtain ⟨s, hsearch, rfl⟩ := expandExpression_ok t input expression files h
  rw [Path.pairwise_lt_inOrder_iff]
  exact pairwise_not_same ht input expression (hone expression hexpression) s hsearch

end SchemaRename
