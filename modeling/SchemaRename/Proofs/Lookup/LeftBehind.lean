import SchemaRename.Proofs.FileTree.AllOrNothing
import SchemaRename.Proofs.Lookup.SourceKept

/-!
# What a Skipped Lookup Leaves Behind

When a lookup that is skipped has left no trace, and what the trace is
otherwise.

All that can be found wrong with a lookup is found before anything is written,
with one exception: a write may fail. A lookup with one destination has
written nothing then. With several destinations the text goes out to one after
the other, the failure ends the lookup where it is, and nothing is taken back.
So the destinations in front of the failed one have the text, although the
lookup counts as skipped.

The rest is as it was, the failed destination and those behind it included.
Only the temporary names are not looked at before they are used, so a file
that has one of them may be gone.

## Main definitions

* `LeftBehind`: What is left when some destinations have a text and the next
  one has failed.
* `blockedContent`, `blockedLookups`: A file with two lookups, and a folder in
  which the second of the two writes fails.

## Theorems

* `planMigration_not_writeFailed`: A plan does not fail for a write.
* `writeDestinations_stops`: Where the destinations of a text are given up.
* `leftBehind_writeDestinations`: What they leave then.
* `LeftBehind.unchanged`: When that is everything as it was.
* `migrateReference_skipped`: What a skipped lookup leaves.
* `migrateReference_leaves_trace`: A trace that is left.
-/

namespace SchemaRename

open SchemaRename.Markup
open SchemaRename.FileTree

/-- What is left when some destinations have a text and the next one has
    failed: the text at their places, and everything else as it was, but for
    files under the temporary names, which may be gone. -/
structure LeftBehind (t t' : FileTree) (text : String) (written : List Path) (failed : Path) :
    Prop where
  holds : ∀ p ∈ written, p.text.utf8ByteSize ≤ maxPathSize →
    ∃ l, t.place? p = some l ∧ t'.get? l = some (.file (.text text))
  kept : ∀ m, (∀ p ∈ written, t.place? p ≠ some m) →
    t'.get? m = t.get? m ∨
      ((∃ p ∈ written ++ [failed], IsTemporaryOf t p m) ∧ t.holdsFile m = true ∧
        t'.get? m = none)

/-- A plan does not fail for a write. -/
theorem planMigration_not_writeFailed (t : FileTree) (path : Path)
    (candidates : List ObjectRename) (destination : Path) (e : String) :
    planMigration t path candidates ≠ .error (.writeFailed destination e) := by
  intro h
  rw [planMigration] at h
  cases hread : t.read path ("read " ++ path.text) with
  | error e => simp [hread, Except.mapError, bind, Except.bind] at h
  | ok content =>
      cases hparse : Document.parse content with
      | error f => simp [hread, hparse, Except.mapError, bind, Except.bind] at h
      | ok document =>
          simp only [hread, hparse, Except.mapError, bind, Except.bind] at h
          split at h
          · simp [throw, throwThe, MonadExceptOf.throw] at h
          · simp only [pure, Except.pure] at h
            split at h
            · simp [throw, throwThe, MonadExceptOf.throw] at h
            · split at h
              · simp [throw, throwThe, MonadExceptOf.throw] at h
              · cases h

/-- The destinations of a text are given up at the first one that fails. The
    ones in front of it are done by then, and it says the same as none of
    them. -/
theorem writeDestinations_stops (text : String) (done destinations : List Path) (t : FileTree)
    (reason : SkippedReason) (t' : FileTree)
    (h : writeDestinations text done destinations t = (.error reason, t')) :
    ∃ front failed back t₁ e, destinations = front ++ failed :: back ∧
      (∀ p ∈ done ++ front, failed.same p = false) ∧
      writeDestinations text done front t = (.ok (), t₁) ∧
      t₁.writeAtomic failed text ("write " ++ failed.text) = (.error e, t') ∧
      reason = .writeFailed failed e.cause.shortText := by
  induction destinations generalizing done t with
  | nil => cases h
  | cons destination destinations ih =>
      rw [writeDestinations] at h
      split at h
      · next hany =>
          -- The destination is passed over, and whatever fails does not say the same.
          obtain ⟨front, failed, back, t₁, e, rfl, hdiffers, hfront, hfails, hreason⟩ := ih _ _ h
          refine ⟨destination :: front, failed, back, t₁, e, rfl, ?_, ?_, hfails, hreason⟩
          · obtain ⟨before, hbefore, hsame⟩ := List.any_eq_true.mp hany
            intro p hp
            rcases List.mem_append.mp hp with hp | hp
            · exact hdiffers p (List.mem_append_left _ hp)
            · rcases List.mem_cons.mp hp with rfl | hp
              · have hbefore := hdiffers before (List.mem_append_left _ hbefore)
                rw [Path.same, beq_iff_eq] at hsame
                rwa [Path.same, hsame, ← Path.same]
              · exact hdiffers p (List.mem_append_right _ hp)
          · rw [writeDestinations, if_pos hany, hfront]
      · next hany =>
          split at h
          · next e t₁ hwrite =>
              cases h
              refine ⟨[], destination, destinations, t, e, rfl, ?_, rfl, hwrite, rfl⟩
              intro p hp
              rw [List.append_nil] at hp
              exact Bool.eq_false_iff.mpr fun hsame =>
                hany (List.any_eq_true.mpr ⟨p, hp, hsame⟩)
          · next t₀ hwrite =>
              obtain ⟨front, failed, back, t₁, e, rfl, hdiffers, hfront, hfails, hreason⟩ :=
                ih _ _ h
              refine ⟨destination :: front, failed, back, t₁, e, rfl, ?_, ?_, hfails, hreason⟩
              · intro p hp
                refine hdiffers p ?_
                rcases List.mem_append.mp hp with hp | hp
                · exact List.mem_append_left _ (List.mem_cons_of_mem _ hp)
                · rcases List.mem_cons.mp hp with rfl | hp
                  · exact List.mem_append_left _ List.mem_cons_self
                  · exact List.mem_append_right _ hp
              · rw [writeDestinations, if_neg hany, hwrite]
                exact hfront

/-- A write to a destination that fails changes nothing but the destination's
    temporary file. -/
theorem get?_of_failed_write {t : FileTree} (ht : t.IsPlain) {failed : Path}
    (hfailed : IsDestination failed) (text operation : String) (e : Error) (t' : FileTree)
    (hfails : t.writeAtomic failed text operation = (.error e, t')) (m : Location) :
    t'.get? m = t.get? m ∨
      (IsTemporaryOf t failed m ∧ t.holdsFile m = true ∧ t'.get? m = none) := by
  rw [writeAtomic_error ht failed text operation e t' hfails m, withoutTemporary, withoutFile]
  split
  · next hgone => exact Or.inr ⟨hfailed.isTemporaryOf ht m hgone.1, hgone.2, rfl⟩
  · exact Or.inl rfl

/-- What destinations leave when one of them fails. -/
theorem leftBehind_writeDestinations (text : String) (front : List Path) (failed : Path)
    (t t₁ t' : FileTree) (ht : t.IsPlain) (hfront : ∀ p ∈ front, IsDestination p)
    (hfailed : IsDestination failed)
    (hwritten : writeDestinations text [] front t = (.ok (), t₁)) (operation : String) (e : Error)
    (hfails : t₁.writeAtomic failed text operation = (.error e, t')) :
    LeftBehind t t' text front failed := by
  have hdelivered := delivered_writeDestinations text [] front t ht hfront
  rw [hwritten] at hdelivered
  have hlast := get?_of_failed_write hdelivered.plain hfailed text operation e t' hfails
  have htransfer : ∀ m, IsTemporaryOf t₁ failed m → IsTemporaryOf t failed m := fun m h =>
    h.of_sameFolders ht hdelivered.plain hdelivered.folders
  refine ⟨fun p hp hsize => ?_, fun m hm => ?_⟩
  · obtain ⟨l, hplace, hwrites⟩ :=
      writesTo_of_writeDestinations text front t t₁ ht hfront hwritten p hp hsize
    refine ⟨l, hplace, ?_⟩
    rcases hlast l with hsame | ⟨htemporary, -⟩
    · rw [hsame, hdelivered.holds l hwrites]
    · exact absurd ((htransfer l htemporary).isTemporary ht)
        ((hfront p hp).not_isTemporary ht l hplace)
  · by_cases hnamed : ∃ p ∈ front ++ [failed], IsTemporaryOf t p m
    · -- Under a temporary name there may have been a file, and no file comes up.
      have hunwritten : ¬ WritesTo text [] front t m := fun h => by
        obtain ⟨d, hd, hplace⟩ := h.exists_place? ht
        exact hm d hd hplace
      have hend : t'.get? m = t.get? m ∨ t'.get? m = none := by
        rcases hlast m with hsame | ⟨-, -, hnone⟩
        · rw [hsame]
          exact (hdelivered.frame m hunwritten).imp_right And.right
        · exact Or.inr hnone
      rcases hend with hsame | hnone
      · exact Or.inl hsame
      · cases hentry : t.get? m with
        | none => exact Or.inl hnone
        | some entry =>
            cases entry with
            | link target => exact absurd hentry (ht.unlinked m target)
            | file content => exact Or.inr ⟨hnamed, by rw [holdsFile, hentry], hnone⟩
            | folder =>
                -- A folder is still there when the last write fails, and that leaves it.
                have hfolder := (hdelivered.folders.folder_iff m).mpr hentry
                rcases hlast m with hsame | ⟨-, hfile, -⟩
                · rw [hsame, hfolder] at hnone
                  cases hnone
                · rw [holdsFile, hfolder] at hfile
                  cases hfile
    · have hunnamed : ∀ p ∈ front ++ [failed], ¬ IsTemporaryOf t p m := fun p hp h =>
        hnamed ⟨p, hp, h⟩
      have hframe := writeDestinations_keeps text [] front t ht m fun d hd =>
        ⟨hfront d hd, hm d hd, hunnamed d (List.mem_append_left _ hd)⟩
      rw [hwritten] at hframe
      rcases hlast m with hsame | ⟨htemporary, -⟩
      · exact Or.inl (hsame.trans hframe)
      · exact absurd (htransfer m htemporary) (hunnamed failed (by simp))

/-- When the first destination fails and there was no file under its temporary
    name, nothing has changed. -/
theorem LeftBehind.unchanged {t t' : FileTree} {text : String} {failed : Path}
    (h : LeftBehind t t' text [] failed)
    (hfree : ∀ m, IsTemporaryOf t failed m → t.holdsFile m = false) (m : Location) :
    t'.get? m = t.get? m := by
  rcases h.kept m (by simp) with hsame | ⟨⟨p, hp, htemporary⟩, hfile, -⟩
  · exact hsame
  · obtain rfl : p = failed := by simpa using hp
    rw [hfree m htemporary] at hfile
    cases hfile

/-- A lookup that is skipped leaves everything as it was, unless a write has
    failed. Then the destinations in front of the failed one have the document
    for the new targets, and everything else is as it was but for files under
    their temporary names. -/
theorem migrateReference_skipped (t : FileTree) (ht : t.IsPlain) (path : Path)
    (candidates : List ObjectRename) (mode : WriteMode) (reason : SkippedReason) (t' : FileTree)
    (h : migrateReference t path candidates mode = (.error reason, t')) :
    ((∀ failed e, reason ≠ .writeFailed failed e) → t' = t) ∧
      ∀ failed e, reason = .writeFailed failed e → mode = .apply ∧
        ∃ document folder front back, Migratable t path candidates document folder ∧
          destinationsOf candidates document folder = front ++ failed :: back ∧
          (∀ p ∈ front, failed.same p = false) ∧
          LeftBehind t t' (retargetDocument candidates document).render front failed ∧
          (front = [] → (∀ m, IsTemporaryOf t failed m → t.holdsFile m = false) →
            ∀ m, t'.get? m = t.get? m) := by
  rw [migrateReference] at h
  cases hplan : planMigration t path candidates with
  | error planned =>
      rw [hplan] at h
      cases h
      refine ⟨fun _ => rfl, fun failed e hreason => ?_⟩
      rw [hreason] at hplan
      exact absurd hplan (planMigration_not_writeFailed t path candidates failed e)
  | ok plan =>
      obtain ⟨references, text⟩ := plan
      rw [hplan] at h
      simp only at h
      cases mode with
      | dryRun => cases h
      | apply =>
          simp only [WriteMode.writes, if_true] at h
          split at h
          · next reason' t₂ hwrite =>
              cases h
              obtain ⟨document, folder, hcan, rfl, rfl⟩ :=
                (planMigration_eq_ok_iff t path candidates references text).mp hplan
              rw [map_destination_referenceTo] at hwrite
              obtain ⟨front, failed, back, t₁, e, hsplit, hdiffers, hwritten, hfails, rfl⟩ :=
                writeDestinations_stops _ [] _ t reason t' hwrite
              have hall : ∀ p ∈ front ++ failed :: back, IsDestination p := fun p hp =>
                isDestination_of_mem (hsplit ▸ hp)
              have hleft := leftBehind_writeDestinations _ front failed t t₁ t' ht
                (fun p hp => hall p (List.mem_append_left _ hp))
                (hall failed (List.mem_append_right _ List.mem_cons_self)) hwritten _ e hfails
              refine ⟨fun hother => absurd rfl (hother failed _), fun failed' e' hreason => ?_⟩
              cases hreason
              refine ⟨rfl, document, folder, front, back, hcan, hsplit, hdiffers, hleft, ?_⟩
              rintro rfl
              exact hleft.unchanged
          · cases h

/-- Two lookups in one file. -/
def blockedContent : String :=
  "<a><referenceTo>L</referenceTo></a><b><referenceTo>K</referenceTo></b>"

/-- A folder with that file. The temporary name of one of the destinations is
    taken by a folder. -/
def blockedLookups : FileTree :=
  { entries := [(["fields"], .folder), (["fields", "A.xml"], .file (.text blockedContent)),
      (["fields", "M.field-meta.xml.tmp"], .folder)] }

/-- The renames of those lookups. -/
def blockedRenames : List ObjectRename :=
  [{ previousObject := "L", newObject := "N" }, { previousObject := "K", newObject := "M" }]

theorem isPlain_blockedLookups : blockedLookups.IsPlain :=
  isPlain_of_check blockedLookups (by decide +kernel)

theorem migrateReference_blockedLookups :
    ∃ e, (migrateReference blockedLookups ⟨"fields/A.xml"⟩ blockedRenames .apply).1 =
      .error (.writeFailed ⟨"fields/M.field-meta.xml"⟩ e) :=
  ⟨OsError.isFolder.message, by decide +kernel⟩

/-- The destinations of those lookups. -/
theorem destinationsOf_blockedContent (document : Document) (folder : Path)
    (hcan : Migratable blockedLookups ⟨"fields/A.xml"⟩ blockedRenames document folder) :
    Document.parse blockedContent = .ok document ∧
      destinationsOf blockedRenames document folder =
        [⟨"fields/N.field-meta.xml"⟩, ⟨"fields/M.field-meta.xml"⟩] := by
  obtain ⟨⟨content, hread, hparse⟩, hfolder, -, -⟩ := hcan
  have hcontent : blockedLookups.readText ⟨"fields/A.xml"⟩ = .ok blockedContent := by
    decide +kernel
  have hfields : (Path.mk "fields/A.xml").fieldsFolder? = some ⟨"fields"⟩ := by decide +kernel
  obtain rfl : blockedContent = content := Except.ok.inj (hcontent.symm.trans hread)
  obtain rfl : ⟨"fields"⟩ = folder := Option.some.inj (hfields.symm.trans hfolder)
  have hdestinations : (Document.parse blockedContent).toOption.map
      (destinationsOf blockedRenames · ⟨"fields"⟩) =
        some [⟨"fields/N.field-meta.xml"⟩, ⟨"fields/M.field-meta.xml"⟩] := by
    decide +kernel
  rw [hparse, Except.toOption, Option.map_some, Option.some.injEq] at hdestinations
  exact ⟨hparse, hdestinations⟩

theorem migrateReference_skipped_blocked :
    blockedLookups.IsPlain ∧ ∃ e t' document,
      migrateReference blockedLookups ⟨"fields/A.xml"⟩ blockedRenames .apply =
        (.error (.writeFailed ⟨"fields/M.field-meta.xml"⟩ e), t') ∧
      Document.parse blockedContent = .ok document ∧
      t'.get? ["fields", "N.field-meta.xml"] =
        some (.file (.text (retargetDocument blockedRenames document).render)) ∧
      ∀ m, m ≠ ["fields", "N.field-meta.xml"] → ¬ IsTemporary m →
        t'.get? m = blockedLookups.get? m := by
  obtain ⟨e, he⟩ := migrateReference_blockedLookups
  obtain ⟨-, hfailed⟩ := migrateReference_skipped blockedLookups isPlain_blockedLookups _ _ _ _ _
    (Prod.ext he rfl)
  obtain ⟨-, document, folder, front, back, hcan, hsplit, -, hleft, -⟩ := hfailed _ e rfl
  obtain ⟨hparse, hdestinations⟩ := destinationsOf_blockedContent document folder hcan
  refine ⟨isPlain_blockedLookups, e, _, document, Prod.ext he rfl, hparse, ?_⟩
  rw [hsplit] at hdestinations
  have hfront : front = [⟨"fields/N.field-meta.xml"⟩] := by
    cases front with
    | nil => simp at hdestinations
    | cons first rest =>
        have hrest : rest = [] := by
          have hlength := congrArg List.length hdestinations
          simp only [List.length_append, List.length_cons, List.length_nil] at hlength
          exact List.eq_nil_of_length_eq_zero (by omega)
        rw [hrest, (List.cons.inj hdestinations).1]
  have hplace : blockedLookups.place? ⟨"fields/N.field-meta.xml"⟩ =
      some ["fields", "N.field-meta.xml"] := by
    decide +kernel
  rw [hfront] at hleft
  constructor
  · obtain ⟨l, hl, htext⟩ := hleft.holds _ List.mem_cons_self (by decide)
    rwa [← Option.some.inj (hplace.symm.trans hl)] at htext
  · intro m hm htemporary
    rcases hleft.kept m (by simpa [hplace] using Ne.symm hm) with hsame | ⟨⟨p, -, hp⟩, -⟩
    · exact hsame
    · exact absurd (hp.isTemporary isPlain_blockedLookups) htemporary

/-- The first of two lookups is written when the second one fails: it is not so
    that a skipped lookup leaves everything as it was. -/
theorem migrateReference_leaves_trace :
    ¬ ∀ (t : FileTree) (path : Path) (candidates : List ObjectRename) (mode : WriteMode)
      (reason : SkippedReason) (t' : FileTree), t.IsPlain → checkObjects 0 candidates = .ok () →
      migrateReference t path candidates mode = (.error reason, t') →
      ∀ m, t'.get? m = t.get? m := by
  intro h
  obtain ⟨e, he⟩ := migrateReference_blockedLookups
  have hsame := h blockedLookups ⟨"fields/A.xml"⟩ blockedRenames .apply _ _ isPlain_blockedLookups
    (by decide +kernel) (Prod.ext he rfl) ["fields", "N.field-meta.xml"]
  exact absurd hsame (by decide +kernel)

end SchemaRename
