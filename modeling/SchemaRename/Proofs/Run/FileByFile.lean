import SchemaRename.Proofs.FileTree.Siblings
import SchemaRename.Proofs.Rule.Counted
import SchemaRename.Proofs.Run.Rewriting
import SchemaRename.Proofs.Substitution.Hazards

/-!
# Batches File by File

A batch of substitutions does to each file what it would do to it alone.

The files of a batch take their turns one after the other, and a turn could
get in the way of another one at two points only: the place of its file, and
the temporary file beside it. Where no file is listed twice, and nothing is
there that has the name of a temporary file, it does not. Each turn finds its
file as it was when the batch started, and leaves the others alone.

What a turn does to its file then depends on the file. The text is replaced by
what the rules in scope make of it, unless that is the text itself. The one
thing that can go wrong is the name of the temporary file, which may be longer
than the system takes. Such a file stays as it is and is reported.

## Main definitions

* `substituted`: What the rules of a batch make of the text of a file.
* `ListedFile`: A file of a batch with its location and content.
* `ListedFile.StandsIn`: What a turn has to find.
* `ListedFile.after`, `ListedFile.change?`: What a turn leaves and reports.
* `ListsFiles`: What a batch has to find.
* `SubstitutedExactly`: What a batch leaves and reports.

## Theorems

* `substituteText_of_not_isMatch`: Rules that do not match change nothing.
* `substituteFile_turn`: One turn.
* `foldl_substituteFile_turns`: All turns.
* `substitutionBatch_exact`: The whole batch.
* `substitutionBatch_misses_long_name`: A file that has no room beside it.
-/

namespace SchemaRename

open SchemaRename.FileTree

theorem Rule.count_of_not_isMatch (r : Rule) (text : List Char) (h : r.isMatch text = false) :
    r.count text = 0 := by
  by_contra hcount
  rw [(r.isMatch_iff_count_pos text).mpr (Nat.pos_of_ne_zero hcount)] at h
  cases h

/-- Rules that match no line but comments leave a text as it is. -/
theorem substituteText_of_not_isMatch (rules : List Rule) (text : List Char)
    (h : ∀ r ∈ rules, ∀ line ∈ text.splitOn '\n', isComment line = false →
      r.isMatch line = false) : substituteText rules text = ⟨text, 0⟩ := by
  refine substituteText_eq_self rules text fun line hline => ?_
  rw [substituteLine]
  split
  · rfl
  · rename_i hcomment
    -- No step of the fold does anything.
    refine List.foldlRecOn rules Substituted.step (motive := (· = ⟨line, 0⟩)) rfl ?_
    rintro _ rfl r hr
    rw [Substituted.step, r.count_of_not_isMatch line
      (h r hr line hline (Bool.eq_false_iff.mpr hcomment))]
    rfl

/-- What the rules of a batch make of the text of a file: those that apply to
    it, in order. -/
def substituted (rules : List Rule) (path : Path) (before : String) : Substituted :=
  substituteText (rules.filter (·.scope.allows (FileTarget.ofPath path))) before.toList

/-- Whether a location has room for a temporary file beside it. -/
def Location.hasRoom (l : Location) : Bool :=
  l.getLast?.any fun name => HasRoom l.dropLast name

/-- Whether the file that a path leads to has room for a temporary file beside
    it. -/
def FileTree.hasRoomAt (t : FileTree) (p : Path) : Bool :=
  (t.place? p).any Location.hasRoom

/-- A file of a batch, with its location and content. -/
structure ListedFile where
  path : Path
  location : Location
  content : Content

namespace ListedFile

/-- A file is where it should be, and there is no temporary file beside it. -/
structure StandsIn (f : ListedFile) (t : FileTree) : Prop where
  place : t.place? f.path = some f.location
  file : t.get? f.location = some (.file f.content)
  free : ∀ folder name, f.location = folder ++ [name] →
    t.get? (folder ++ [name ++ temporarySuffix]) = none

/-- The substitution that is due: none for a file that is no text, or whose
    text would stay the same. -/
def due? (f : ListedFile) (rules : List Rule) : Option Substituted :=
  match f.content with
  | .text before =>
    let result := substituted rules f.path before
    if result.content = before.toList then none else some result
  | .bytes _ => none

theorem due?_eq_some_iff (f : ListedFile) (rules : List Rule) (result : Substituted) :
    f.due? rules = some result ↔ ∃ before, f.content = .text before ∧
      result = substituted rules f.path before ∧ result.content ≠ before.toList := by
  rw [due?]
  cases f.content with
  | bytes b => simp
  | text before =>
      simp only [Content.text.injEq, exists_eq_left']
      split
      · next hsame =>
          simp only [reduceCtorEq, false_iff, not_and, not_not]
          rintro rfl
          exact hsame
      · next hne =>
          simp only [Option.some.injEq]
          exact ⟨fun heq => ⟨heq.symm, heq ▸ hne⟩, fun heq => heq.1.symm⟩

/-- What a file holds after its turn. -/
def after (f : ListedFile) (rules : List Rule) : Content :=
  match f.due? rules with
  | some result => if f.location.hasRoom then .text (String.ofList result.content) else f.content
  | none => f.content

/-- A file whose text stays the same, or that is no text, is left as it is. -/
theorem after_of_same (f : ListedFile) (rules : List Rule)
    (h : ∀ before, f.content = .text before →
      (substituted rules f.path before).content = before.toList) : f.after rules = f.content := by
  rw [after]
  split
  · next result hdue =>
      obtain ⟨before, hcontent, rfl, hne⟩ := (f.due?_eq_some_iff rules result).mp hdue
      exact absurd (h before hcontent) hne
  · rfl

theorem after_of_not_hasRoom (f : ListedFile) (rules : List Rule)
    (hroom : f.location.hasRoom = false) : f.after rules = f.content := by
  rw [after, hroom]
  split <;> rfl

theorem after_of_hasRoom (f : ListedFile) (rules : List Rule) (before : String)
    (hcontent : f.content = .text before) (hroom : f.location.hasRoom = true) :
    f.after rules = .text (String.ofList (substituted rules f.path before).content) := by
  by_cases hsame : (substituted rules f.path before).content = before.toList
  · rw [hsame, String.ofList_toList, ← hcontent]
    refine f.after_of_same rules fun before' hbefore' => ?_
    cases hcontent.symm.trans hbefore'
    exact hsame
  · rw [after, (f.due?_eq_some_iff rules _).mpr ⟨before, hcontent, rfl, hsame⟩, hroom]
    rfl

/-- What is reported as changed. -/
def change? (f : ListedFile) (rules : List Rule) : Option FileChange :=
  if f.location.hasRoom then (f.due? rules).map fun r => ⟨f.path, r.replacements, true⟩ else none

end ListedFile

theorem Location.hasRoom_concat (folder : Location) (name : String) :
    Location.hasRoom (folder ++ [name]) = decide (HasRoom folder name) := by
  rw [Location.hasRoom, List.getLast?_concat, List.dropLast_concat, Option.any_some]

theorem ListedFile.StandsIn.exists_name {f : ListedFile} {t : FileTree} (hf : f.StandsIn t) :
    ∃ folder name, f.location = folder ++ [name] := by
  have hne : f.location ≠ [] := ne_nil_of_get?_ne t (by simp [hf.file])
  exact ⟨_, _, (List.dropLast_append_getLast hne).symm⟩

/-- A file stands as before in a tree that was rewritten elsewhere. -/
theorem ListedFile.StandsIn.of_rewritten {f : ListedFile} {t t' : FileTree} {ls : List Location}
    (ht : t.IsPlain) (hf : f.StandsIn t) (h : Rewritten t t' ls) (hl : f.location ∉ ls) :
    f.StandsIn t' := by
  refine ⟨?_, ?_, ?_⟩
  · rw [place?_of_sameFolders ht h.plain h.toSameFolders, hf.place]
  · rw [h.frame _ hl, hf.file]
  · intro folder name heq
    have hpresent := h.present (folder ++ [name ++ temporarySuffix])
    rw [hf.free folder name heq] at hpresent
    simpa using hpresent

section Turn

variable {t : FileTree} (ht : t.IsPlain) (f : ListedFile) (hf : f.StandsIn t)
include ht hf

/-- With room beside it, a file is replaced, and everything else stays. -/
theorem ListedFile.writeAtomic_of_hasRoom (text operation : String)
    (hroom : f.location.hasRoom = true) :
    ∃ t', t.writeAtomic f.path text operation = (.ok (), t') ∧ Rewritten t t' [f.location] ∧
      t'.get? f.location = some (.file (.text text)) := by
  obtain ⟨folder, name, hl⟩ := hf.exists_name
  obtain ⟨hplace, hfile, hfree⟩ := hf
  rw [hl] at hplace hfile hroom ⊢
  rw [Location.hasRoom_concat, decide_eq_true_eq] at hroom
  have hok := writeAtomic_ok ht f.path folder name hplace f.content hfile text operation
    (hfree folder name hl) hroom
  rcases writeAtomic_cases ht f.path text operation with
    ⟨e, t', heq, -⟩ | ⟨l, t', heq, hplace', hreplaced⟩
  · rw [heq] at hok
    cases hok
  · obtain rfl : folder ++ [name] = l := Option.some.inj (hplace.symm.trans hplace')
    have hframe : ∀ m, m ≠ folder ++ [name] → t'.get? m = t.get? m := by
      intro m hm
      rcases hreplaced.frame m hm with hsame | ⟨-, hnone⟩
      · exact hsame
      · -- Of the temporary files only the one beside the file could be gone, and
        -- that one was not there.
        by_cases hsibling : m = folder ++ [name ++ temporarySuffix]
        · rw [hnone, hsibling, hfree folder name hl]
        · have hkept := writeAtomic_frame ht f.path text operation m
            (by rw [hplace]; exact fun h => hm (Option.some.inj h).symm)
            (fun h => hsibling (eq_sibling_of_temporaryPlace? ht f.path folder name hplace m h))
          rwa [heq] at hkept
    refine ⟨t', heq, ⟨⟨hreplaced.folders, fun m => ?_⟩, hreplaced.plain, ?_⟩, hreplaced.holds⟩
    · by_cases hm : m = folder ++ [name]
      · rw [hm, hreplaced.holds, hfile]
        exact Iff.rfl
      · rw [hframe m hm]
    · exact fun m hm => hframe m (by simpa using hm)

/-- Without room beside it, nothing happens to a file. -/
theorem ListedFile.writeAtomic_of_not_hasRoom (text operation : String)
    (hroom : f.location.hasRoom = false) :
    ∃ e, t.writeAtomic f.path text operation = (.error e, t) := by
  obtain ⟨folder, name, hl⟩ := hf.exists_name
  rw [hl, Location.hasRoom_concat, decide_eq_false_iff_not] at hroom
  exact writeAtomic_noRoom ht f.path folder name (by rw [hf.place, hl]) f.content
    (by rw [← hl, hf.file]) text operation (hf.free folder name hl) hroom

theorem ListedFile.exists?_path : t.exists? f.path = true := by
  rw [exists?, entryAt?_eq ht, hf.place, Option.bind_some, hf.file]
  rfl

theorem ListedFile.readText_path (before : String) :
    t.readText f.path = .ok before ↔ f.content = .text before := by
  rw [readText_eq_ok_iff ht, hf.place]
  simp [hf.file]

/-- A turn for which nothing is due leaves the tree and the list of changes
    alone. -/
theorem substituteFile_of_due?_none (rules : List Rule) (b : BatchReport)
    (hdue : f.due? rules = none) :
    (substituteFile rules .apply (b, t) f.path).2 = t ∧
      (substituteFile rules .apply (b, t) f.path).1.changed = b.changed := by
  simp only [substituteFile]
  -- Without a rule in scope the file is not even read.
  split
  · exact ⟨rfl, rfl⟩
  · simp only [applyRules, f.exists?_path ht hf, FileTree.read, Bool.not_true, Bool.false_eq_true,
      if_false]
    cases hread : t.readText f.path with
    | error e => exact ⟨rfl, rfl⟩
    | ok before =>
        have hsame : (substituted rules f.path before).content = before.toList := by
          by_contra hne
          have hsome := (f.due?_eq_some_iff rules _).mpr
            ⟨before, (f.readText_path ht hf before).mp hread, rfl, hne⟩
          rw [hdue] at hsome
          cases hsome
        rw [substituted] at hsame
        simp only [Except.mapError, hsame, beq_self_eq_true, if_true, true_and]
        rfl

/-- A turn for which a substitution is due goes on to write. -/
theorem substituteFile_of_due?_some (rules : List Rule) (b : BatchReport) (result : Substituted)
    (hdue : f.due? rules = some result) :
    substituteFile rules .apply (b, t) f.path =
      match t.writeAtomic f.path (String.ofList result.content) ("write " ++ f.path.text) with
      | (.error e, t) => (b.skip f.path ("write failed: " ++ e.cause.shortText), t)
      | (.ok (), t) =>
        ({ b with changed := b.changed ++ [⟨f.path, result.replacements, true⟩] }, t) := by
  obtain ⟨before, hcontent, rfl, hne⟩ := (f.due?_eq_some_iff rules result).mp hdue
  have hread := (f.readText_path ht hf before).mpr hcontent
  rw [substituted] at hne ⊢
  -- Some rule applies, for no rules would change nothing.
  have happlicable : (rules.filter (·.scope.allows (FileTarget.ofPath f.path))).isEmpty =
      false := by
    rw [List.isEmpty_eq_false_iff]
    intro hnil
    rw [hnil, substituteText_of_not_isMatch [] _ (by simp)] at hne
    exact hne rfl
  simp only [substituteFile, happlicable, applyRules, f.exists?_path ht hf, FileTree.read, hread,
    Except.mapError, Bool.not_true, Bool.false_eq_true, if_false, beq_iff_eq, hne,
    WriteMode.writes, if_true]
  cases t.writeAtomic f.path _ ("write " ++ f.path.text) with
  | mk outcome t' => cases outcome <;> rfl

/-- One turn: the file gets what is due to it, everything else stays, and the
    report says so. -/
theorem substituteFile_turn (rules : List Rule) (b : BatchReport) :
    ∃ b' t', substituteFile rules .apply (b, t) f.path = (b', t') ∧
      Rewritten t t' [f.location] ∧ t'.get? f.location = some (.file (f.after rules)) ∧
      b'.changed = b.changed ++ (f.change? rules).toList ∧
      ((f.due? rules).isSome → f.location.hasRoom = false →
        ∃ reason, ⟨f.path, "write failed: " ++ reason⟩ ∈ b'.skipped) := by
  cases hdue : f.due? rules with
  | none =>
      obtain ⟨htree, hchanged⟩ := substituteFile_of_due?_none ht f hf rules b hdue
      refine ⟨_, t, Prod.ext rfl htree, Rewritten.refl ht _, ?_, ?_, by simp⟩
      · rw [hf.file, ListedFile.after, hdue]
      · rw [hchanged, ListedFile.change?, hdue]
        simp
  | some result =>
      rw [substituteFile_of_due?_some ht f hf rules b result hdue, ListedFile.after, hdue,
        ListedFile.change?, hdue]
      cases hroom : f.location.hasRoom with
      | true =>
          obtain ⟨t', heq, hrewritten, hholds⟩ :=
            f.writeAtomic_of_hasRoom ht hf (String.ofList result.content) _ hroom
          rw [heq]
          exact ⟨_, t', rfl, hrewritten, hholds, rfl, by simp⟩
      | false =>
          obtain ⟨e, heq⟩ :=
            f.writeAtomic_of_not_hasRoom ht hf (String.ofList result.content) _ hroom
          rw [heq]
          exact ⟨_, t, rfl, Rewritten.refl ht _, hf.file, by simp [BatchReport.skip],
            fun _ _ => ⟨_, List.mem_append_right _ (List.mem_singleton_self _)⟩⟩

end Turn

/-- All turns: each file gets what is due to it, as if it were the only one. -/
theorem foldl_substituteFile_turns (rules : List Rule) (listed : List ListedFile)
    (b : BatchReport) (t : FileTree) (ht : t.IsPlain) (hlisted : ∀ f ∈ listed, f.StandsIn t)
    (hnodup : (listed.map (·.location)).Nodup) :
    ∃ b' t', (listed.map (·.path)).foldl (substituteFile rules .apply) (b, t) = (b', t') ∧
      Rewritten t t' (listed.map (·.location)) ∧
      (∀ f ∈ listed, t'.get? f.location = some (.file (f.after rules))) ∧
      b'.changed = b.changed ++ listed.filterMap (·.change? rules) ∧
      ∀ f ∈ listed, (f.due? rules).isSome → f.location.hasRoom = false →
        ∃ reason, ⟨f.path, "write failed: " ++ reason⟩ ∈ b'.skipped := by
  induction listed generalizing b t with
  | nil => exact ⟨b, t, rfl, Rewritten.refl ht _, by simp, by simp, by simp⟩
  | cons f listed ih =>
      obtain ⟨hfirst, hrest⟩ := List.nodup_cons.mp hnodup
      obtain ⟨b₁, t₁, heq, hrewritten, hafter, hchanged, hfailed⟩ :=
        substituteFile_turn ht f (hlisted f List.mem_cons_self) rules b
      -- The files behind it stand where they stood.
      have hstand : ∀ g ∈ listed, g.StandsIn t₁ := by
        intro g hg
        refine (hlisted g (List.mem_cons_of_mem f hg)).of_rewritten ht hrewritten ?_
        rw [List.mem_singleton]
        exact fun h => hfirst (List.mem_map.mpr ⟨g, hg, h⟩)
      obtain ⟨b', t', heq', hrewritten', hafter', hchanged', hfailed'⟩ :=
        ih b₁ t₁ hrewritten.plain hstand hrest
      refine ⟨b', t', ?_, hrewritten.trans hrewritten', ?_, ?_, ?_⟩
      · rw [List.map_cons, List.foldl_cons, heq, heq']
      · intro g hg
        rcases List.mem_cons.mp hg with rfl | hg
        · -- No later turn comes to this location.
          rw [hrewritten'.frame _ hfirst, hafter]
        · exact hafter' g hg
      · rw [hchanged', hchanged, List.append_assoc, List.filterMap_cons]
        cases f.change? rules <;> rfl
      · intro g hg hdue hroom
        rcases List.mem_cons.mp hg with rfl | hg
        · -- What was noted stays in the report.
          obtain ⟨reason, hreason⟩ := hfailed hdue hroom
          have hkept := ((notesOnly_substituteFile rules .apply).foldl (listed.map (·.path))
            (b₁, t₁)).2.2
          rw [heq'] at hkept
          exact ⟨reason, hkept.subset hreason⟩
        · exact hfailed' g hg hdue hroom

theorem substitutionBatch_turns (m : RenameMap) (expression : String) (rules : List Rule)
    (hrules : m.rules expression = .ok rules) (listed : List ListedFile) (t : FileTree)
    (ht : t.IsPlain) (hlisted : ∀ f ∈ listed, f.StandsIn t)
    (hnodup : (listed.map (·.location)).Nodup) :
    ∃ batch t', substitutionBatch m expression (listed.map (·.path)) .apply t = (.ok batch, t') ∧
      Rewritten t t' (listed.map (·.location)) ∧
      (∀ f ∈ listed, t'.get? f.location = some (.file (f.after rules))) ∧
      batch.changed = listed.filterMap (·.change? rules) ∧
      ∀ f ∈ listed, (f.due? rules).isSome → f.location.hasRoom = false →
        ∃ reason, ⟨f.path, "write failed: " ++ reason⟩ ∈ batch.skipped := by
  obtain ⟨batch, t', heq, hrest⟩ := foldl_substituteFile_turns rules listed
    { expression, kind := .substitution, matchedFiles := (listed.map (·.path)).length }
    t ht hlisted hnodup
  exact ⟨batch, t', by simp only [substitutionBatch, hrules, heq], hrest⟩

/-- What a batch leaves and reports, as far as substitutions go. -/
structure SubstitutedExactly (rules : List Rule) (files : List Path) (t : FileTree)
    (batch : BatchReport) (t' : FileTree) : Prop where
  /-- Whatever is not listed is as it was. -/
  others : ∀ l, (∀ p ∈ files, t.place? p ≠ some l) → t'.get? l = t.get? l
  /-- A listed text is what the rules in scope have made of it. -/
  texts : ∀ p ∈ files, ∀ before, t.readText p = .ok before → t.hasRoomAt p = true →
    t'.readText p = .ok (String.ofList (substituted rules p before).content)
  /-- A text that has no room beside it stays, and is reported if it should not
      have. -/
  stuck : ∀ p ∈ files, ∀ before, t.readText p = .ok before → t.hasRoomAt p = false →
    t'.readText p = .ok before ∧ ((substituted rules p before).content ≠ before.toList →
      ∃ reason, ⟨p, "write failed: " ++ reason⟩ ∈ batch.skipped)
  /-- What is no text stays. -/
  bytes : ∀ p ∈ files, (∀ before, t.readText p ≠ .ok before) →
    t'.entryAt? true p = t.entryAt? true p
  /-- The changes are the texts that differ, in order. -/
  changed : batch.changed = files.filterMap fun p => (t.readText p).toOption.bind fun before =>
    if (t'.readText p).toOption = some before then none
    else some ⟨p, (substituted rules p before).replacements, true⟩
  /-- What no rule is allowed to change, or no rule matches in, stays. -/
  idle : ∀ p ∈ files, (∀ rule ∈ rules, rule.scope.allows (FileTarget.ofPath p) = true →
      ∀ before, t.readText p = .ok before → ∀ line ∈ before.toList.splitOn '\n',
        isComment line = false → rule.isMatch line = false) →
    t'.entryAt? true p = t.entryAt? true p

/-- Files that are there, each of them once under whatever path, and without a
    temporary file beside them. -/
structure ListsFiles (files : List Path) (t : FileTree) : Prop where
  isFile : ∀ p ∈ files, t.isFile p = true
  nodup : (files.map t.place?).Nodup
  free : ∀ p ∈ files, ∀ folder name, t.place? p = some (folder ++ [name]) →
    t.get? (folder ++ [name ++ temporarySuffix]) = none

/-- The listed files are those that stand in the tree. -/
theorem listsFiles_iff (files : List Path) (t : FileTree) (ht : t.IsPlain) :
    ListsFiles files t ↔ ∃ listed : List ListedFile, listed.map (·.path) = files ∧
      (∀ f ∈ listed, f.StandsIn t) ∧ (listed.map (·.location)).Nodup := by
  have hplaces : ∀ listed : List ListedFile, (∀ f ∈ listed, f.StandsIn t) →
      (listed.map (·.path)).map t.place? = (listed.map (·.location)).map some := by
    intro listed hlisted
    rw [List.map_map, List.map_map]
    exact List.map_congr_left fun f hf => (hlisted f hf).place
  constructor
  · rintro ⟨hfiles, hnodup, hfree⟩
    obtain ⟨listed, rfl, hlisted⟩ : ∃ listed : List ListedFile,
        listed.map (·.path) = files ∧ ∀ f ∈ listed, f.StandsIn t := by
      clear hnodup
      induction files with
      | nil => exact ⟨[], rfl, by simp⟩
      | cons p files ih =>
          obtain ⟨listed, rfl, hlisted⟩ := ih (fun q hq => hfiles q (List.mem_cons_of_mem p hq))
            fun q hq => hfree q (List.mem_cons_of_mem p hq)
          obtain ⟨l, hplace, content, hcontent⟩ :=
            (isFile_iff ht p).mp (hfiles p List.mem_cons_self)
          refine ⟨⟨p, l, content⟩ :: listed, rfl, ?_⟩
          rintro f (_ | ⟨_, hf⟩)
          · refine ⟨hplace, hcontent, ?_⟩
            rintro folder name rfl
            exact hfree p List.mem_cons_self folder name hplace
          · exact hlisted f hf
    rw [hplaces listed hlisted] at hnodup
    exact ⟨listed, rfl, hlisted, hnodup.of_map some⟩
  · rintro ⟨listed, rfl, hlisted, hnodup⟩
    refine ⟨?_, ?_, ?_⟩
    · intro p hp
      obtain ⟨f, hf, rfl⟩ := List.mem_map.mp hp
      exact (isFile_iff ht f.path).mpr ⟨_, (hlisted f hf).place, _, (hlisted f hf).file⟩
    · rw [hplaces listed hlisted]
      exact hnodup.map fun _ _ h => Option.some.inj h
    · intro p hp folder name hplace
      obtain ⟨f, hf, rfl⟩ := List.mem_map.mp hp
      exact (hlisted f hf).free folder name
        (Option.some.inj ((hlisted f hf).place.symm.trans hplace))

section After

variable {t t' : FileTree} (ht : t.IsPlain) {ls : List Location} (hrewritten : Rewritten t t' ls)
  (rules : List Rule) (f : ListedFile) (hf : f.StandsIn t)
  (hafter : t'.get? f.location = some (.file (f.after rules)))
include ht hrewritten hf hafter

theorem ListedFile.readText_after (text : String) :
    t'.readText f.path = .ok text ↔ f.after rules = .text text := by
  rw [readText_eq_ok_iff hrewritten.plain,
    place?_of_sameFolders ht hrewritten.plain hrewritten.toSameFolders, hf.place]
  simp [hafter]

theorem ListedFile.entryAt?_after (hsame : f.after rules = f.content) :
    t'.entryAt? true f.path = t.entryAt? true f.path := by
  rw [entryAt?_eq hrewritten.plain, entryAt?_eq ht,
    place?_of_sameFolders ht hrewritten.plain hrewritten.toSameFolders, hf.place,
    Option.bind_some, Option.bind_some, hafter, hsame, hf.file]

/-- What is reported of a file is the difference that can be seen. -/
theorem ListedFile.change?_eq :
    f.change? rules = (t.readText f.path).toOption.bind fun before =>
      if (t'.readText f.path).toOption = some before then none
      else some ⟨f.path, (substituted rules f.path before).replacements, true⟩ := by
  have hend : ∀ text, (t'.readText f.path).toOption = some text ↔ f.after rules = .text text := by
    intro text
    rw [← f.readText_after ht hrewritten rules hf hafter]
    cases t'.readText f.path <;> simp [Except.toOption]
  cases hread : t.readText f.path with
  | error e =>
      have hdue : f.due? rules = none := by
        rw [Option.eq_none_iff_forall_ne_some]
        intro result hdue
        obtain ⟨before, hcontent, -⟩ := (f.due?_eq_some_iff rules result).mp hdue
        rw [(f.readText_path ht hf before).mpr hcontent] at hread
        cases hread
      rw [ListedFile.change?, hdue]
      simp [Except.toOption]
  | ok before =>
      have hcontent := (f.readText_path ht hf before).mp hread
      rw [show (Except.ok before : Except OsError String).toOption = some before from rfl,
        Option.bind_some, ListedFile.change?]
      by_cases hsame : f.after rules = .text before
      · -- Nothing to be seen: nothing was due, or there was no room for it.
        rw [if_pos ((hend before).mpr hsame)]
        split
        · next hroom =>
            rw [Option.map_eq_none_iff, Option.eq_none_iff_forall_ne_some]
            intro result hdue
            obtain ⟨before', hbefore', rfl, hne⟩ := (f.due?_eq_some_iff rules result).mp hdue
            cases hcontent.symm.trans hbefore'
            rw [f.after_of_hasRoom rules before hcontent hroom, Content.text.injEq] at hsame
            exact hne (String.toList_ofList.symm.trans (congrArg String.toList hsame))
        · rfl
      · -- A difference can be seen: there was room, and something was due.
        rw [if_neg fun h => hsame ((hend before).mp h)]
        have hroom : f.location.hasRoom = true := by
          by_contra hno
          exact hsame ((f.after_of_not_hasRoom rules (Bool.eq_false_iff.mpr hno)).trans hcontent)
        rw [if_pos hroom, (f.due?_eq_some_iff rules _).mpr ⟨before, hcontent, rfl, fun heq => ?_⟩]
        · rfl
        · rw [f.after_of_hasRoom rules before hcontent hroom, heq, String.ofList_toList] at hsame
          exact hsame rfl

end After

/-- A batch of substitutions does what it reports, and to each file what it
    would do to that file alone. -/
theorem substitutionBatch_exact (m : RenameMap) (expression : String) (rules : List Rule)
    (hrules : m.rules expression = .ok rules) (files : List Path) (t : FileTree) (ht : t.IsPlain)
    (hfiles : ListsFiles files t) :
    ∃ batch t', substitutionBatch m expression files .apply t = (.ok batch, t') ∧
      SubstitutedExactly rules files t batch t' := by
  obtain ⟨listed, rfl, hlisted, hnodup⟩ := (listsFiles_iff files t ht).mp hfiles
  obtain ⟨batch, t', heq, hrewritten, hafter, hchanged, hfailed⟩ :=
    substitutionBatch_turns m expression rules hrules listed t ht hlisted hnodup
  have hroomAt : ∀ f ∈ listed, t.hasRoomAt f.path = f.location.hasRoom := by
    intro f hf
    rw [hasRoomAt, (hlisted f hf).place, Option.any_some]
  refine ⟨batch, t', heq, ?_⟩
  constructor
  case others =>
    intro l hl
    refine hrewritten.frame l fun hmem => ?_
    obtain ⟨f, hf, rfl⟩ := List.mem_map.mp hmem
    exact hl f.path (List.mem_map_of_mem hf) (hlisted f hf).place
  case texts =>
    intro p hp before hread hroom
    obtain ⟨f, hf, rfl⟩ := List.mem_map.mp hp
    rw [f.readText_after ht hrewritten rules (hlisted f hf) (hafter f hf)]
    exact f.after_of_hasRoom rules before ((f.readText_path ht (hlisted f hf) before).mp hread)
      ((hroomAt f hf).symm.trans hroom)
  case stuck =>
    intro p hp before hread hroom
    obtain ⟨f, hf, rfl⟩ := List.mem_map.mp hp
    have hcontent := (f.readText_path ht (hlisted f hf) before).mp hread
    rw [hroomAt f hf] at hroom
    rw [f.readText_after ht hrewritten rules (hlisted f hf) (hafter f hf)]
    refine ⟨(f.after_of_not_hasRoom rules hroom).trans hcontent, fun hne => ?_⟩
    refine hfailed f hf ?_ hroom
    rw [(f.due?_eq_some_iff rules _).mpr ⟨before, hcontent, rfl, hne⟩]
    rfl
  case bytes =>
    intro p hp hbytes
    obtain ⟨f, hf, rfl⟩ := List.mem_map.mp hp
    refine f.entryAt?_after ht hrewritten rules (hlisted f hf) (hafter f hf) ?_
    refine f.after_of_same rules fun before hcontent => ?_
    exact absurd ((f.readText_path ht (hlisted f hf) before).mpr hcontent) (hbytes before)
  case changed =>
    rw [hchanged, List.filterMap_map]
    exact List.filterMap_congr fun f hf =>
      f.change?_eq ht hrewritten rules (hlisted f hf) (hafter f hf)
  case idle =>
    intro p hp hidle
    obtain ⟨f, hf, rfl⟩ := List.mem_map.mp hp
    refine f.entryAt?_after ht hrewritten rules (hlisted f hf) (hafter f hf) ?_
    refine f.after_of_same rules fun before hcontent => ?_
    have hread := (f.readText_path ht (hlisted f hf) before).mpr hcontent
    rw [substituted, substituteText_of_not_isMatch]
    intro rule hrule
    obtain ⟨hmem, hallowed⟩ := List.mem_filter.mp hrule
    exact hidle rule hmem hallowed before hread

/-- A map that renames one object. -/
def shortMap : RenameMap :=
  { objects := [{ previousObject := "L", newObject := "N" }] }

/-- A folder with two files that name the object. -/
def twoFiles : FileTree :=
  { entries := [(["A.cls"], .file (.text " L L ")), (["B.cls"], .file (.text "// L"))] }

theorem exists_shortRules : ∃ rules, shortMap.rules "" = .ok rules ∧
    (∀ rule ∈ rules, rule.scope = {}) ∧
    (substituteText rules " L ".toList).content = " N ".toList := by
  have hrun : (shortMap.rules "").toOption.map (fun rules =>
      (decide (∀ rule ∈ rules, rule.scope = {}), (substituteText rules " L ".toList).content)) =
      some (true, " N ".toList) := by
    decide +kernel
  cases hrules : shortMap.rules "" with
  | error cause =>
      rw [hrules] at hrun
      cases hrun
  | ok rules =>
      rw [hrules] at hrun
      simp only [Except.toOption, Option.map_some, Option.some.injEq, Prod.mk.injEq,
        decide_eq_true_eq] at hrun
      exact ⟨rules, rfl, hrun⟩

theorem substitutionBatch_exact_twoFiles :
    ∃ rules batch t', shortMap.rules "" = .ok rules ∧ twoFiles.IsPlain ∧
      substitutionBatch shortMap "" [⟨"B.cls"⟩, ⟨"A.cls"⟩] .apply twoFiles = (.ok batch, t') ∧
      SubstitutedExactly rules [⟨"B.cls"⟩, ⟨"A.cls"⟩] twoFiles batch t' := by
  obtain ⟨rules, hrules, -⟩ := exists_shortRules
  have hplain : twoFiles.IsPlain := isPlain_of_check _ (by decide +kernel)
  have hclean := hasNoTemporaries_of_check twoFiles (by decide +kernel)
  have hfiles : ListsFiles [⟨"B.cls"⟩, ⟨"A.cls"⟩] twoFiles :=
    ⟨by decide +kernel, by decide +kernel, fun _ _ folder name _ => hclean _ ⟨folder, name, rfl⟩⟩
  obtain ⟨batch, t', heq, hexact⟩ := substitutionBatch_exact shortMap "" rules hrules
    [⟨"B.cls"⟩, ⟨"A.cls"⟩] twoFiles hplain hfiles
  exact ⟨rules, batch, t', hrules, hplain, heq, hexact⟩

/-- A folder with one file. -/
def loneFile (name text : String) : FileTree :=
  { entries := [([name], .file (.text text))] }

theorem isPlain_loneFile (name text : String) (h : isEntryName name = true) :
    (loneFile name text).IsPlain := by
  refine isPlain_of_check _ ?_
  simp [isPlain, loneFile, h, isLink, get?]

theorem standsIn_loneFile (name text : String) (h : isEntryName name = true) :
    ListedFile.StandsIn ⟨⟨name⟩, [name], .text text⟩ (loneFile name text) := by
  have hname := isFileName_of_isEntryName h
  have hget : (loneFile name text).get? [name] = some (.file (.text text)) := by
    simp [loneFile, get?]
  have hsteps : (Path.mk name).steps = [name] := by
    rw [Path.steps_of_noSlash name hname.noSlash]
    simp [hname.ne_empty]
  have hlocation : (loneFile name text).location ⟨name⟩ = [name] := by
    rw [location, hsteps, origin, Path.isAbsolute_of_noSlash name hname.noSlash]
    simp [loneFile, hname.ne_dot]
  have hslash : (Path.mk name).endsInSlash = false := by
    rw [← Path.endsInSlash_append "" name hname.noSlash hname.ne_empty, String.empty_append]
  refine ⟨?_, hget, ?_⟩
  · have hplace := place?_of_get? (isPlain_loneFile name text h) ⟨name⟩
      (by rw [hsteps]; simpa using hname.ne_dots.symm) hname.ne_empty
      (le_trans (size_le_of_isEntryName h) (by decide)) _ (by rw [hlocation, hget])
      (Or.inr ⟨hslash, by rw [hsteps]; simpa using hname.ne_dot⟩)
    rw [hplace, hlocation]
  · intro folder n heq
    obtain ⟨rfl, hn⟩ := List.append_inj' (show [] ++ [name] = folder ++ [n] from heq) rfl
    obtain rfl := List.singleton_inj.mp hn
    have hlonger : name ++ temporarySuffix ≠ name := by
      intro hsame
      have hlength := congrArg (fun s : String => s.toList.length) hsame
      simp [temporarySuffix] at hlength
    simp [loneFile, get?, hlonger]

theorem listsFiles_loneFile (name text : String) (h : isEntryName name = true) :
    ListsFiles [⟨name⟩] (loneFile name text) :=
  (listsFiles_iff _ _ (isPlain_loneFile name text h)).mpr
    ⟨[⟨⟨name⟩, [name], .text text⟩], rfl, by simpa using standsIn_loneFile name text h,
      List.nodup_singleton _⟩

/-- A lone file without room beside it stays as it is. -/
theorem substitutionBatch_loneFile (m : RenameMap) (expression : String) (rules : List Rule)
    (hrules : m.rules expression = .ok rules) (name text : String) (h : isEntryName name = true)
    (hroom : ¬ HasRoom [] name) :
    (substitutionBatch m expression [⟨name⟩] .apply (loneFile name text)).2.readText ⟨name⟩ =
      .ok text := by
  have hstands := standsIn_loneFile name text h
  obtain ⟨batch, t', heq, hrewritten, hafter, -⟩ := substitutionBatch_turns m expression rules
    hrules [⟨⟨name⟩, [name], .text text⟩] _ (isPlain_loneFile name text h) (by simpa using hstands)
    (List.nodup_singleton _)
  have hnone : Location.hasRoom [name] = false := by
    rw [← List.nil_append [name], Location.hasRoom_concat, decide_eq_false_iff_not]
    exact hroom
  rw [show substitutionBatch m expression [⟨name⟩] .apply (loneFile name text) = (.ok batch, t')
    from heq, ListedFile.readText_after (isPlain_loneFile name text h) hrewritten rules _ hstands
    (hafter _ List.mem_cons_self)]
  exact ListedFile.after_of_not_hasRoom _ rules hnone

/-- A name that the system just takes, four bytes a letter. -/
def longName : String :=
  String.ofList (List.replicate 62 '𝔸') ++ ".cls"

theorem isEntryName_longName : isEntryName longName = true := by
  have hslash : '/' ∉ (String.ofList (List.replicate 62 '𝔸')).toList := by
    rw [String.toList_ofList]
    exact fun hmem => absurd (List.eq_of_mem_replicate hmem) (by decide)
  have hname : IsFileName longName := isFileName_append hslash (by decide) (by decide)
  have hsize : longName.utf8ByteSize ≤ maxNameSize := by decide +kernel
  rw [isEntryName, Bool.and_eq_true, decide_eq_true_eq, decide_eq_true_eq]
  exact ⟨hname, hsize⟩

/-- A file is missed for the length of its name: it is not so that every listed
    text is what the rules in scope make of it. -/
theorem substitutionBatch_misses_long_name :
    ¬ ∀ (m : RenameMap) (expression : String) (rules : List Rule) (files : List Path)
      (t : FileTree), m.rules expression = .ok rules → t.IsPlain → ListsFiles files t →
      ∃ batch t', substitutionBatch m expression files .apply t = (.ok batch, t') ∧
        ∀ p ∈ files, ∀ before, t.readText p = .ok before →
          t'.readText p = .ok (String.ofList (substituted rules p before).content) := by
  intro h
  obtain ⟨rules, hrules, hscopes, hrenamed⟩ := exists_shortRules
  have hname := isEntryName_longName
  obtain ⟨batch, t', heq, htext⟩ := h shortMap "" rules [⟨longName⟩] (loneFile longName " L ")
    hrules (isPlain_loneFile longName " L " hname) (listsFiles_loneFile longName " L " hname)
  have hafter := htext ⟨longName⟩ List.mem_cons_self " L "
    ((ListedFile.readText_path (isPlain_loneFile longName " L " hname) _
      (standsIn_loneFile longName " L " hname) " L ").mpr rfl)
  have hkept := substitutionBatch_loneFile shortMap "" rules hrules longName " L " hname
    (by decide +kernel)
  rw [heq, hafter, substituted, List.filter_eq_self.mpr fun rule hrule => by
    rw [hscopes rule hrule, Scope.allows]; rfl, hrenamed] at hkept
  exact absurd (Except.ok.inj hkept) (by decide)

end SchemaRename
