import SchemaRename.Proofs.FileTree.PathSteps

/-!
# Tidy Paths

Paths without slashes that say nothing.

What is put behind a path ends up in the same place whether the path has
doubled slashes, a slash at its end, or neither. The tidy spelling has
neither, and says what the path says. The one thing it does not keep apart is
a dot in front, so paths that start with a dot are set aside.

## Main definitions

* `Path.Undotted`: A path that starts with no dot.
* `Path.tidy`: A path without doubled slashes and without a slash at its end.

## Theorems

* `extend_filter_join`, `extend_eq_filter`: Empty pieces do not matter for what
  is put behind them.
* `components_tidy`: A path and its tidy spelling say the same.
* `tidy_tidy_extend`: A tidy path with names behind it is tidy.
-/

namespace SchemaRename

namespace Path

/-- A path that is not empty and starts with no dot. -/
structure Undotted (p : Path) : Prop where
  ne_empty : p.text ≠ ""
  ne_dot : p.pieces.head? ≠ some "."

theorem Undotted.join {p : Path} (hp : p.Undotted) (s : String) (hs : '/' ∉ s.toList) :
    (p.join s).Undotted := by
  refine ⟨?_, by rw [head?_pieces_join p s hs hp.ne_empty]; exact hp.ne_dot⟩
  intro hempty
  rcases join_cases p s hs with ⟨hp', -⟩ | ⟨q, -, hj⟩ | ⟨-, -, hj⟩
  · exact hp.ne_empty hp'
  · rw [hj] at hempty
    exact absurd (congrArg String.toList hempty) (by simp [String.toList_append])
  · rw [hj] at hempty
    exact absurd (congrArg String.toList hempty) (by simp [String.toList_append])

theorem Undotted.text_ne_dot {p : Path} (hp : p.Undotted) : p.text ≠ "." := by
  intro hdot
  apply hp.ne_dot
  rw [show p = ⟨"."⟩ from congrArg Path.mk hdot]
  decide

theorem undotted_of_isAbsolute (p : Path) (h : p.isAbsolute = true) : p.Undotted := by
  obtain ⟨piece, rest, hpieces⟩ := pieces_of_isAbsolute p h
  refine ⟨?_, by rw [hpieces]; simp⟩
  intro hempty
  rw [isAbsolute, hempty] at h
  simp at h

theorem undotted_of_isFileName (s : String) (hs : IsFileName s) : (Path.mk s).Undotted := by
  refine ⟨hs.ne_empty, ?_⟩
  rw [pieces_of_noSlash s hs.noSlash]
  simpa using hs.ne_dot

theorem noSlash_of_mem_pieces (p : Path) (s : String) (h : s ∈ p.pieces) : '/' ∉ s.toList := by
  obtain ⟨piece, hpiece, rfl⟩ := List.mem_map.mp h
  rw [String.toList_ofList]
  exact Text.not_mem_of_mem_splitOn '/' _ piece hpiece

/-- The first piece of a path with no dot in front. -/
theorem Undotted.pieces {p : Path} (hp : p.Undotted) (habsolute : p.isAbsolute = false) :
    ∃ first rest, p.pieces = first :: rest ∧ first ≠ "" ∧ first ≠ "." ∧
      '/' ∉ first.toList ∧ (Path.mk first).Undotted := by
  cases hpieces : p.pieces with
  | nil => exact absurd hpieces (pieces_ne_nil p)
  | cons first rest =>
      have hne : first ≠ "" := by
        rintro rfl
        cases rest with
        | nil =>
            have htext : p.text.toList = ['/'].intercalate (p.text.toList.splitOn '/') :=
              (List.intercalate_splitOn '/').symm
            rw [Path.pieces, List.map_eq_singleton_iff] at hpieces
            obtain ⟨chars, hchars, hempty⟩ := hpieces
            rw [String.ofList_eq_empty_iff] at hempty
            rw [hchars, hempty] at htext
            exact hp.ne_empty (String.toList_eq_nil_iff.mp (by simpa using htext))
        | cons second rest =>
            rw [isAbsolute_of_pieces p second rest hpieces] at habsolute
            cases habsolute
      have hdot : first ≠ "." := fun hdot => hp.ne_dot (by rw [hpieces, hdot]; rfl)
      have hslash := noSlash_of_mem_pieces p first (by rw [hpieces]; exact List.mem_cons_self)
      refine ⟨first, rest, rfl, hne, hdot, hslash, hne, ?_⟩
      rw [pieces_of_noSlash first hslash]
      simpa using hdot

/-- A slash behind a path does not matter for what is put behind it. -/
theorem join_empty_join (p : Path) (s : String) (hs : '/' ∉ s.toList) :
    (p.join "").join s = p.join s := by
  rcases join_cases p "" (by simp) with ⟨hp, hj⟩ | ⟨q, hp, hj⟩ | ⟨hne, hslash, hj⟩
  · rw [hj, show p = ⟨""⟩ from congrArg Path.mk hp]
  · rw [hj, String.append_empty, ← hp]
  · have hend : (Path.mk (p.text ++ "/" ++ "")).endsInSlash = true := by
      rw [endsInSlash]
      simp [String.toList_append]
    rw [hj, join, join, isAbsolute_of_noSlash s hs, hend, hslash,
      String.isEmpty_eq_false_iff.mpr hne]
    simp

/-- Empty pieces do not matter for what is put behind them. -/
theorem extend_filter_join (p : Path) (pieces : List String)
    (hpieces : ∀ s ∈ pieces, '/' ∉ s.toList) (s : String) (hs : '/' ∉ s.toList) :
    (p.extend pieces).join s = (p.extend (pieces.filter (· != ""))).join s := by
  induction pieces generalizing p with
  | nil => rfl
  | cons piece pieces ih =>
      have htail : ∀ s ∈ pieces, '/' ∉ s.toList := fun s hs =>
        hpieces s (List.mem_cons_of_mem _ hs)
      by_cases hpiece : piece = ""
      · subst hpiece
        rw [List.filter_cons_of_neg (by simp), extend_cons, ih _ htail]
        cases hfilter : pieces.filter (· != "") with
        | nil => exact join_empty_join p s hs
        | cons next rest =>
            have hnext : next ∈ pieces := by
              have hmem : next ∈ pieces.filter (· != "") := by
                rw [hfilter]
                exact List.mem_cons_self
              exact (List.mem_filter.mp hmem).1
            rw [extend_cons, extend_cons, join_empty_join p next (htail next hnext)]
      · rw [List.filter_cons_of_pos (by simpa using hpiece), extend_cons, extend_cons, ih _ htail]

/-- Empty pieces leave a slash at the end, if anything. -/
theorem extend_eq_filter (p : Path) (pieces : List String)
    (hpieces : ∀ s ∈ pieces, '/' ∉ s.toList) :
    p.extend pieces = p.extend (pieces.filter (· != "")) ∨
      p.extend pieces = (p.extend (pieces.filter (· != ""))).join "" := by
  rcases List.eq_nil_or_concat pieces with rfl | ⟨front, last, hlast⟩
  · exact Or.inl rfl
  · rw [List.concat_eq_append] at hlast
    subst hlast
    have hlast := extend_filter_join p front
      (fun s hs => hpieces s (by simp [hs])) last (hpieces last (by simp))
    have hextend : p.extend (front ++ [last]) =
        (p.extend (front.filter (· != ""))).join last := by
      rw [← hlast, extend_append]
      rfl
    rw [hextend, List.filter_append]
    by_cases hempty : last = ""
    · right
      simp [hempty]
    · left
      rw [List.filter_cons_of_pos (by simpa using hempty), extend_append]
      rfl

theorem steps_extend (p : Path) (names : List String) (h : ∀ s ∈ names, '/' ∉ s.toList) :
    (p.extend names).steps = p.steps ++ names.filter (· != "") := by
  induction names generalizing p with
  | nil => simp
  | cons name names ih =>
      rw [extend_cons, ih _ fun s hs => h s (List.mem_cons_of_mem _ hs),
        steps_join p name (h name List.mem_cons_self), List.append_assoc,
        ← List.filter_append]
      rfl

theorem steps_extend_names (p : Path) (names : List String) (h : ∀ n ∈ names, IsFileName n) :
    (p.extend names).steps = p.steps ++ names := by
  rw [steps_extend _ _ fun s hs => (h s hs).noSlash,
    List.filter_eq_self.mpr fun s hs => by simpa using (h s hs).ne_empty]

/-- A path with names behind it ends in the last of them. -/
theorem exists_last_extend (p : Path) (names : List String) (h : ∀ n ∈ names, IsFileName n)
    (hne : names ≠ []) :
    ∃ front name, names = front ++ [name] ∧ IsFileName name ∧
      (p.extend names).steps = (p.steps ++ front) ++ [name] ∧
      (p.extend names).endsInSlash = false ∧ (p.extend names).fileName? = some name := by
  obtain ⟨front, name, hnames⟩ := (List.eq_nil_or_concat names).resolve_left hne
  rw [List.concat_eq_append] at hnames
  subst hnames
  have hname := h name (by simp)
  refine ⟨front, name, rfl, hname, ?_, ?_⟩
  · rw [steps_extend_names p _ h, List.append_assoc]
  · rw [extend_concat]
    exact ⟨endsInSlash_join _ _ hname.noSlash hname.ne_empty, fileName?_join _ _ hname⟩

theorem isAbsolute_extend (p : Path) (names : List String) (h : ∀ s ∈ names, '/' ∉ s.toList) :
    (p.extend names).isAbsolute = p.isAbsolute := by
  induction names generalizing p with
  | nil => rfl
  | cons name names ih =>
      rw [extend_cons, ih _ fun s hs => h s (List.mem_cons_of_mem _ hs),
        isAbsolute_join p name (h name List.mem_cons_self)]

theorem size_le_extend (p : Path) (names : List String) (h : ∀ s ∈ names, '/' ∉ s.toList) :
    p.text.utf8ByteSize ≤ (p.extend names).text.utf8ByteSize := by
  induction names generalizing p with
  | nil => exact Nat.le_refl _
  | cons name names ih =>
      exact Nat.le_trans (size_le_join p name (h name List.mem_cons_self))
        (ih _ fun s hs => h s (List.mem_cons_of_mem _ hs))

theorem Undotted.extend {p : Path} (hp : p.Undotted) (names : List String)
    (h : ∀ s ∈ names, '/' ∉ s.toList) : (p.extend names).Undotted := by
  induction names generalizing p with
  | nil => exact hp
  | cons name names ih =>
      exact ih (hp.join name (h name List.mem_cons_self))
        fun s hs => h s (List.mem_cons_of_mem _ hs)

/-- A path without doubled slashes and without a slash at its end. -/
def tidy (p : Path) : Path :=
  (Path.mk (if p.isAbsolute then "/" else "")).extend p.steps

theorem noSlash_of_mem_steps (p : Path) : ∀ s ∈ p.steps, '/' ∉ s.toList :=
  fun s hs => (mem_steps p s hs).2

theorem isAbsolute_tidy (p : Path) : p.tidy.isAbsolute = p.isAbsolute := by
  rw [tidy, isAbsolute_extend _ _ (noSlash_of_mem_steps p)]
  cases p.isAbsolute <;> rfl

theorem filter_steps (p : Path) : p.steps.filter (· != "") = p.steps :=
  List.filter_eq_self.mpr fun s hs => by simpa using (mem_steps p s hs).1

theorem steps_tidy (p : Path) : p.tidy.steps = p.steps := by
  rw [tidy, steps_extend _ _ (noSlash_of_mem_steps p), filter_steps]
  cases p.isAbsolute <;> rfl

theorem Undotted.tidy {p : Path} (hp : p.Undotted) : p.tidy.Undotted := by
  cases habsolute : p.isAbsolute with
  | true => exact undotted_of_isAbsolute _ (by rw [isAbsolute_tidy, habsolute])
  | false =>
      obtain ⟨first, rest, hpieces, hne, -, hslash, hfirst⟩ := hp.pieces habsolute
      have hsteps : p.steps = first :: rest.filter (· != "") := by
        rw [steps, hpieces, List.filter_cons_of_pos (by simpa using hne)]
      rw [Path.tidy, habsolute, hsteps, if_neg Bool.false_ne_true, extend_cons,
        empty_join first hslash]
      refine hfirst.extend _ ?_
      intro s hs
      exact noSlash_of_mem_steps p s (by rw [hsteps]; exact List.mem_cons_of_mem _ hs)

/-- A path and its tidy spelling say the same. -/
theorem components_tidy (p : Path) (hp : p.Undotted) : p.tidy.components = p.components := by
  rw [components_eq, components_eq, steps_tidy, lead, lead, isAbsolute_tidy,
    if_neg hp.ne_dot, if_neg hp.tidy.ne_dot]

theorem steps_tidy_extend (p : Path) (names : List String) (h : ∀ n ∈ names, IsFileName n) :
    (p.tidy.extend names).steps = p.steps ++ names := by
  rw [steps_extend_names p.tidy names h, steps_tidy]

/-- A tidy path with names behind it is tidy. -/
theorem tidy_tidy_extend (p : Path) (names : List String) (h : ∀ n ∈ names, IsFileName n) :
    (p.tidy.extend names).tidy = p.tidy.extend names := by
  have hslash : ∀ s ∈ names, '/' ∉ s.toList := fun s hs => (h s hs).noSlash
  rw [tidy, isAbsolute_extend _ _ hslash, isAbsolute_tidy, steps_tidy_extend p names h,
    extend_append]
  rfl

end Path

end SchemaRename
