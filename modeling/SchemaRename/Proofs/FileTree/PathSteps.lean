import SchemaRename.FileTree.Resolve
import SchemaRename.Proofs.Text.Cutting

/-!
# The Steps of a Path

What a path says, read off its text.

A path is kept as text, and everything the library asks of it goes through
the pieces between its slashes. Putting a name behind a path puts one step
behind its steps, whether the path ends in a slash, is empty or is neither.
Everything else about longer paths follows from that one fact.

What stands in front of the names is kept apart: a path can start at the
root, or with a dot, and no name put behind it changes that.

## Main definitions

* `IsFileName`: Texts that name an entry of a folder.
* `Path.lead`: What a path starts with.
* `Path.extend`: A path with names behind it.

## Theorems

* `pieces_slash`: The pieces on both sides of a slash.
* `steps_join`: The steps of a path with a piece behind it.
* `components_eq`: A path as what it starts with and its steps.
* `components_join`, `components_extend`: Names behind a path.
* `text_ofComponents_names`: The text of some names.
* `components_ofComponents`: The first steps of a path are a path.
* `stepsAfter?_append`: What is behind a folder's steps is found again.
-/

namespace SchemaRename

/-- A text that names an entry of a folder. -/
structure IsFileName (s : String) : Prop where
  noSlash : '/' ∉ s.toList
  ne_empty : s ≠ ""
  ne_dot : s ≠ "."
  ne_dots : s ≠ ".."

instance (s : String) : Decidable (IsFileName s) :=
  decidable_of_iff ('/' ∉ s.toList ∧ s ≠ "" ∧ s ≠ "." ∧ s ≠ "..")
    ⟨fun ⟨a, b, c, d⟩ => ⟨a, b, c, d⟩, fun ⟨a, b, c, d⟩ => ⟨a, b, c, d⟩⟩

/-- A text with a longer ending is a name. -/
theorem isFileName_append {s ending : String} (hs : '/' ∉ s.toList)
    (hending : '/' ∉ ending.toList) (hlength : 2 < ending.toList.length) :
    IsFileName (s ++ ending) := by
  have hne : ∀ short : String, short.toList.length ≤ 2 → s ++ ending ≠ short := by
    intro short hshort heq
    rw [← heq, String.toList_append, List.length_append] at hshort
    omega
  refine ⟨?_, hne _ (by decide), hne _ (by decide), hne _ (by decide)⟩
  rw [String.toList_append, List.mem_append, not_or]
  exact ⟨hs, hending⟩

namespace Path

/-- The pieces on both sides of a slash. -/
theorem pieces_slash (a b : String) :
    (Path.mk (a ++ "/" ++ b)).pieces = (Path.mk a).pieces ++ (Path.mk b).pieces := by
  have h : (a ++ "/" ++ b).toList = a.toList ++ '/' :: b.toList := by
    simp [String.toList_append]
  rw [pieces, h, List.splitOn_append_cons_self, List.map_append]
  rfl

theorem pieces_of_noSlash (s : String) (h : '/' ∉ s.toList) : (Path.mk s).pieces = [s] := by
  rw [pieces, List.splitOn_eq_singleton h]
  simp

theorem pieces_ne_nil (p : Path) : p.pieces ≠ [] := by
  rw [pieces, Ne, List.map_eq_nil_iff]
  exact List.splitOn_ne_nil _ _

/-- A path that ends in a slash, as what is in front of it. -/
theorem exists_of_endsInSlash (p : Path) (h : p.endsInSlash = true) :
    ∃ q, p.text = q ++ "/" := by
  rw [endsInSlash, beq_iff_eq, List.getLast?_eq_some_iff] at h
  rcases h with ⟨front, hfront⟩
  refine ⟨String.ofList front, ?_⟩
  rw [← String.toList_inj, hfront, String.toList_append, String.toList_ofList]
  rfl

theorem isAbsolute_of_noSlash (s : String) (h : '/' ∉ s.toList) :
    (Path.mk s).isAbsolute = false := by
  rw [isAbsolute, beq_eq_false_iff_ne]
  intro hhead
  exact h (List.mem_of_mem_head? hhead)

/-- The three ways of putting a piece behind a path. -/
theorem join_cases (p : Path) (s : String) (hs : '/' ∉ s.toList) :
    (p.text = "" ∧ p.join s = ⟨s⟩) ∨ (∃ q, p.text = q ++ "/" ∧ p.join s = ⟨q ++ "/" ++ s⟩) ∨
      (p.text ≠ "" ∧ p.endsInSlash = false ∧ p.join s = ⟨p.text ++ "/" ++ s⟩) := by
  have habs := isAbsolute_of_noSlash s hs
  by_cases hempty : p.text = ""
  · left
    refine ⟨hempty, ?_⟩
    rw [join, habs, if_neg Bool.false_ne_true, hempty]
    simp
  · right
    have hne : p.text.isEmpty = false := String.isEmpty_eq_false_iff.mpr hempty
    cases hslash : p.endsInSlash with
    | true =>
        left
        rcases exists_of_endsInSlash p hslash with ⟨q, hq⟩
        refine ⟨q, hq, ?_⟩
        rw [join, habs, if_neg Bool.false_ne_true, hslash, Bool.or_true, if_pos rfl, hq]
    | false =>
        right
        refine ⟨hempty, rfl, ?_⟩
        rw [join, habs, if_neg Bool.false_ne_true, hslash, hne, Bool.or_false,
          if_neg Bool.false_ne_true]

theorem empty_join (s : String) (hs : '/' ∉ s.toList) : (Path.mk "").join s = ⟨s⟩ := by
  rcases join_cases ⟨""⟩ s hs with ⟨-, hj⟩ | ⟨q, hq, -⟩ | ⟨hne, -⟩
  · exact hj
  · exact absurd (congrArg String.toList hq) (by simp [String.toList_append])
  · exact absurd rfl hne

theorem pieces_empty : (Path.mk "").pieces = [""] :=
  pieces_of_noSlash "" (by simp)

theorem steps_slash (a b : String) :
    (Path.mk (a ++ "/" ++ b)).steps = (Path.mk a).steps ++ (Path.mk b).steps := by
  rw [steps, pieces_slash, List.filter_append]
  rfl

theorem steps_of_noSlash (s : String) (h : '/' ∉ s.toList) :
    (Path.mk s).steps = [s].filter (· != "") := by
  rw [steps, pieces_of_noSlash s h]

theorem steps_slash_end (q : String) : (Path.mk (q ++ "/")).steps = (Path.mk q).steps := by
  have h := steps_slash q ""
  rw [String.append_empty, steps_of_noSlash "" (by simp)] at h
  simpa using h

/-- The steps of a path with a piece behind it. -/
theorem steps_join (p : Path) (s : String) (hs : '/' ∉ s.toList) :
    (p.join s).steps = p.steps ++ [s].filter (· != "") := by
  rcases join_cases p s hs with ⟨hp, hj⟩ | ⟨q, hp, hj⟩ | ⟨-, -, hj⟩
  · have hsteps : p.steps = [] := by
      rw [show p = ⟨""⟩ from congrArg Path.mk hp, steps_of_noSlash "" (by simp)]
      rfl
    rw [hj, hsteps, List.nil_append, steps_of_noSlash s hs]
  · have hsteps : p.steps = (Path.mk q).steps := by
      rw [show p = ⟨q ++ "/"⟩ from congrArg Path.mk hp, steps_slash_end]
    rw [hj, steps_slash, hsteps, steps_of_noSlash s hs]
  · rw [hj, steps_slash, steps_of_noSlash s hs]

theorem steps_join_name (p : Path) (s : String) (hs : IsFileName s) :
    (p.join s).steps = p.steps ++ [s] := by
  rw [steps_join p s hs.noSlash, List.filter_cons_of_pos (by simpa using hs.ne_empty)]
  rfl

theorem dots_join (p : Path) (s : String) (hs : '/' ∉ s.toList) (hne : s ≠ "..")
    (hdots : ".." ∉ p.steps) : ".." ∉ (p.join s).steps := by
  rw [steps_join p s hs, List.mem_append, not_or]
  exact ⟨hdots, fun hmem => hne (List.mem_singleton.mp (List.mem_filter.mp hmem).1).symm⟩

/-- A step is no empty text and has no slash. -/
theorem mem_steps (p : Path) (s : String) (h : s ∈ p.steps) : s ≠ "" ∧ '/' ∉ s.toList := by
  obtain ⟨hpiece, hne⟩ := List.mem_filter.mp h
  obtain ⟨piece, hmem, rfl⟩ := List.mem_map.mp hpiece
  refine ⟨by simpa using hne, ?_⟩
  rw [String.toList_ofList]
  exact Text.not_mem_of_mem_splitOn '/' _ piece hmem

theorem mem_steps_of_mem_stepsToFolder (p : Path) (s : String) (h : s ∈ p.stepsToFolder)
    (hdot : s ≠ ".") : s ∈ p.steps := by
  rw [stepsToFolder, List.mem_append] at h
  rcases h with h | h
  · exact h
  · split at h
    · exact absurd (List.mem_singleton.mp h) hdot
    · simp at h

theorem filter_stepsToFolder (p : Path) :
    p.stepsToFolder.filter (· != ".") = p.steps.filter (· != ".") := by
  rw [stepsToFolder]
  split <;> simp

/-- What a path starts with, before its names. -/
def lead (p : Path) : List Component :=
  if p.isAbsolute then [.root]
  else if p.pieces.head? = some "." then [.current]
  else []

/-- The pieces of a path that starts at the root. -/
theorem pieces_of_isAbsolute (p : Path) (h : p.isAbsolute = true) :
    ∃ piece rest, p.pieces = "" :: piece :: rest := by
  rw [isAbsolute, beq_iff_eq, List.head?_eq_some_iff] at h
  rcases h with ⟨tail, htail⟩
  have hp : p = ⟨"" ++ "/" ++ String.ofList tail⟩ := by
    apply congrArg Path.mk
    rw [← String.toList_inj, htail]
    simp [String.toList_append]
  have hpieces : p.pieces = "" :: (Path.mk (String.ofList tail)).pieces := by
    rw [hp, pieces_slash, pieces_empty]
    rfl
  cases hrest : (Path.mk (String.ofList tail)).pieces with
  | nil => exact absurd hrest (pieces_ne_nil _)
  | cons piece rest => exact ⟨piece, rest, hpieces.trans (by rw [hrest])⟩

theorem isAbsolute_eq_false_of_pieces (p : Path)
    (h : ∀ piece rest, p.pieces ≠ "" :: piece :: rest) : p.isAbsolute = false := by
  cases habsolute : p.isAbsolute with
  | false => rfl
  | true =>
      obtain ⟨piece, rest, hpieces⟩ := pieces_of_isAbsolute p habsolute
      exact absurd hpieces (h piece rest)

/-- Only a path that starts at the root starts with an empty piece and goes
    on. -/
theorem isAbsolute_of_pieces (p : Path) (piece : String) (rest : List String)
    (h : p.pieces = "" :: piece :: rest) : p.isAbsolute = true := by
  have htext : p.text.toList = ['/'].intercalate (p.text.toList.splitOn '/') :=
    (List.intercalate_splitOn '/').symm
  rw [pieces] at h
  cases hs : p.text.toList.splitOn '/' with
  | nil => exact absurd hs (List.splitOn_ne_nil _ _)
  | cons first others =>
      rw [hs, List.map_cons, List.cons.injEq] at h
      have hfirst : first = [] := by
        have := h.1
        rwa [← String.ofList_nil, String.ofList_inj] at this
      have hothers : others ≠ [] := by
        intro hnil
        rw [hnil] at h
        simp at h
      rw [hs, hfirst, List.intercalate_cons_of_ne_nil hothers] at htext
      rw [isAbsolute, htext]
      simp

theorem filterMap_ofPiece?_steps (pieces : List String) :
    (pieces.filter (· != "")).filterMap Component.ofPiece? =
      pieces.filterMap Component.ofPiece? := by
  induction pieces with
  | nil => rfl
  | cons piece pieces ih =>
      by_cases h : piece = ""
      · subst h
        rw [List.filter_cons_of_neg (by simp), ih]
        rfl
      · rw [List.filter_cons_of_pos (by simpa using h), List.filterMap_cons, ih,
          List.filterMap_cons]

/-- A path as what it starts with and its steps. -/
theorem components_eq (p : Path) :
    p.components = p.lead ++ p.steps.filterMap Component.ofPiece? := by
  rw [steps, filterMap_ofPiece?_steps, components, lead]
  split
  · next piece rest h =>
      rw [isAbsolute_of_pieces p piece rest h, if_pos rfl, h]
      rfl
  · next rest h =>
      have habs : p.isAbsolute = false :=
        isAbsolute_eq_false_of_pieces p fun piece others => by simp [h]
      rw [habs, h]
      rfl
  · next hroot hdot =>
      have habs : p.isAbsolute = false := isAbsolute_eq_false_of_pieces p hroot
      have hhead : p.pieces.head? ≠ some "." := by
        intro h
        rcases List.head?_eq_some_iff.mp h with ⟨rest, hrest⟩
        exact hdot rest hrest
      rw [habs, if_neg Bool.false_ne_true, if_neg hhead, List.nil_append]

/-- The steps of a path are no root and no dot. -/
theorem ne_of_mem_filterMap_ofPiece? (steps : List String) (c : Component)
    (h : c ∈ steps.filterMap Component.ofPiece?) : c ≠ .root ∧ c ≠ .current := by
  obtain ⟨piece, -, hpiece⟩ := List.mem_filterMap.mp h
  rw [Component.ofPiece?] at hpiece
  split at hpiece
  · cases hpiece
  · split at hpiece <;> cases hpiece <;> simp

theorem filterMap_ofPiece?_eq (steps : List String) (h : ∀ s ∈ steps, s ≠ "") :
    (steps.filterMap Component.ofPiece?).map Component.text = steps.filter (· != ".") := by
  induction steps with
  | nil => rfl
  | cons s steps ih =>
      have hne := h s List.mem_cons_self
      have htail := ih fun s hs => h s (List.mem_cons_of_mem _ hs)
      by_cases hdot : s = "."
      · subst hdot
        exact htail
      · rw [List.filter_cons_of_pos (by simpa using hdot), ← htail]
        by_cases hdots : s = ".."
        · subst hdots
          rfl
        · have hpiece : Component.ofPiece? s = some (.name s) := by
            simp [Component.ofPiece?, hne, hdot, hdots]
          rw [List.filterMap_cons_some hpiece]
          rfl

theorem isAbsolute_iff_root_mem (p : Path) :
    p.isAbsolute = true ↔ Component.root ∈ p.components := by
  rw [components_eq, List.mem_append]
  constructor
  · intro habsolute
    left
    rw [lead, if_pos habsolute]
    exact List.mem_singleton_self _
  · rintro (hlead | hmem)
    · rw [lead] at hlead
      split at hlead
      · assumption
      · split at hlead <;> simp at hlead
    · exact absurd rfl (ne_of_mem_filterMap_ofPiece? _ _ hmem).1

/-- What a path says are its steps, dots aside. -/
theorem text_components (p : Path) :
    (p.components.filter (fun c => c != .root && c != .current)).map Component.text =
      p.steps.filter (· != ".") := by
  have hlead : p.lead.filter (fun c => c != .root && c != .current) = [] := by
    rw [lead]
    split
    · rfl
    · split <;> rfl
  rw [components_eq, List.filter_append, hlead, List.nil_append,
    List.filter_eq_self.mpr (fun c hc => by simpa using ne_of_mem_filterMap_ofPiece? _ c hc),
    filterMap_ofPiece?_eq p.steps fun s hs => (mem_steps p s hs).1]

/-- A path that goes on from another one by names starts at the same folder and
    has these names behind the other's, dots aside. -/
theorem steps_of_components_append (p q : Path) (names : List String)
    (h : p.components = q.components ++ names.map .name) :
    p.isAbsolute = q.isAbsolute ∧
      p.steps.filter (· != ".") = q.steps.filter (· != ".") ++ names := by
  have htext : ((names.map Component.name).filter fun c => c != .root && c != .current).map
      Component.text = names := by
    rw [List.filter_eq_self.mpr (by simp), List.map_map]
    exact List.map_id names
  constructor
  · rw [Bool.eq_iff_iff, isAbsolute_iff_root_mem p, isAbsolute_iff_root_mem q, h]
    simp
  · rw [← text_components p, ← text_components q, h, List.filter_append, List.map_append, htext]

/-- Paths that say the same start at the same folder and have the same names,
    dots aside. -/
theorem steps_of_components_eq (p q : Path) (h : p.components = q.components) :
    p.isAbsolute = q.isAbsolute ∧ p.steps.filter (· != ".") = q.steps.filter (· != ".") := by
  simpa using steps_of_components_append p q [] (by simpa using h)

theorem head?_pieces_slash (a b : String) :
    (Path.mk (a ++ "/" ++ b)).pieces.head? = (Path.mk a).pieces.head? := by
  rw [pieces_slash]
  cases h : (Path.mk a).pieces with
  | nil => exact absurd h (pieces_ne_nil _)
  | cons piece rest => rfl

theorem isAbsolute_slash (a b c : String) :
    (Path.mk (a ++ "/" ++ b)).isAbsolute = (Path.mk (a ++ "/" ++ c)).isAbsolute := by
  rw [isAbsolute, isAbsolute]
  cases ha : a.toList with
  | nil => simp [String.toList_append, ha]
  | cons x rest => simp [String.toList_append, ha]

theorem isAbsolute_join (p : Path) (s : String) (hs : '/' ∉ s.toList) :
    (p.join s).isAbsolute = p.isAbsolute := by
  rcases join_cases p s hs with ⟨hp, hj⟩ | ⟨q, hp, hj⟩ | ⟨hne, -, hj⟩
  · rw [hj, isAbsolute_of_noSlash s hs, show p = ⟨""⟩ from congrArg Path.mk hp]
    rfl
  · rw [hj, show p = ⟨q ++ "/" ++ ""⟩ from congrArg Path.mk (by rw [hp, String.append_empty])]
    exact isAbsolute_slash q s ""
  · rw [hj, isAbsolute, isAbsolute]
    cases ha : p.text.toList with
    | nil => exact absurd (String.toList_eq_nil_iff.mp ha) hne
    | cons x rest => simp [String.toList_append, ha]

theorem head?_pieces_join (p : Path) (s : String) (hs : '/' ∉ s.toList) (hp : p.text ≠ "") :
    (p.join s).pieces.head? = p.pieces.head? := by
  rcases join_cases p s hs with ⟨hnil, -⟩ | ⟨q, hq, hj⟩ | ⟨-, -, hj⟩
  · exact absurd hnil hp
  · rw [hj, head?_pieces_slash,
      show p = ⟨q ++ "/" ++ ""⟩ from congrArg Path.mk (by rw [hq, String.append_empty]),
      head?_pieces_slash]
  · rw [hj, head?_pieces_slash]

/-- No name changes what a path starts with. -/
theorem lead_join (p : Path) (s : String) (hs : '/' ∉ s.toList) (h : p.text ≠ "" ∨ s ≠ ".") :
    (p.join s).lead = p.lead := by
  rw [lead, lead, isAbsolute_join p s hs]
  by_cases hp : p.text = ""
  · have hdot : s ≠ "." := h.resolve_left (fun hne => hne hp)
    rw [show p = ⟨""⟩ from congrArg Path.mk hp, empty_join s hs, pieces_of_noSlash s hs,
      pieces_empty]
    simp [hdot]
  · rw [head?_pieces_join p s hs hp]

/-- A name behind a path is one more component. -/
theorem components_join (p : Path) (s : String) (hs : IsFileName s) :
    (p.join s).components = p.components ++ [.name s] := by
  have hpiece : Component.ofPiece? s = some (.name s) := by
    simp [Component.ofPiece?, hs.ne_empty, hs.ne_dot, hs.ne_dots]
  rw [components_eq, components_eq, lead_join p s hs.noSlash (Or.inr hs.ne_dot),
    steps_join_name p s hs, List.filterMap_append, List.append_assoc]
  simp [hpiece]

theorem fileName?_join (p : Path) (s : String) (hs : IsFileName s) :
    (p.join s).fileName? = some s := by
  rw [fileName?, components_join p s hs, List.getLast?_concat]

theorem fileName?_of_steps (p : Path) (front : List String) (s : String)
    (hsteps : p.steps = front ++ [s]) (hs : IsFileName s) : p.fileName? = some s := by
  have hpiece : Component.ofPiece? s = some (.name s) := by
    simp [Component.ofPiece?, hs.ne_empty, hs.ne_dot, hs.ne_dots]
  rw [fileName?, components_eq, hsteps, List.filterMap_append, ← List.append_assoc]
  simp [hpiece]

theorem text_join_ne_empty (p : Path) (s : String) (hs : '/' ∉ s.toList) (hne : s ≠ "") :
    (p.join s).text ≠ "" := by
  rcases join_cases p s hs with ⟨-, hj⟩ | ⟨q, -, hj⟩ | ⟨-, -, hj⟩ <;> rw [hj]
  · exact hne
  · exact fun h => hne (by simpa using congrArg String.toList h)
  · exact fun h => hne (by simpa using congrArg String.toList h)

/-- The names of a path are proper names. -/
theorem isFileName_of_mem_components (p : Path) (s : String) (h : .name s ∈ p.components) :
    IsFileName s := by
  rw [components_eq, List.mem_append, List.mem_filterMap] at h
  rcases h with hlead | ⟨piece, hpiece, hname⟩
  · rw [lead] at hlead
    split at hlead
    · simp at hlead
    · split at hlead <;> simp at hlead
  · obtain ⟨hne, hslash⟩ := mem_steps p piece hpiece
    rw [Component.ofPiece?] at hname
    split at hname
    · cases hname
    · next hdot =>
        split at hname
        · cases hname
        · next hdots =>
            cases hname
            simp only [Bool.or_eq_true, beq_iff_eq, not_or] at hdot hdots
            exact ⟨hslash, hne, hdot.2, hdots⟩

/-- The root and a dot stand in front of a path only. -/
theorem ne_of_mem_tail_components (p : Path) (first : Component) (rest : List Component)
    (h : p.components = first :: rest) : ∀ c ∈ rest, c ≠ .root ∧ c ≠ .current := by
  intro c hc
  rw [components_eq, lead] at h
  split at h
  · cases h
    exact ne_of_mem_filterMap_ofPiece? _ c hc
  · split at h
    · cases h
      exact ne_of_mem_filterMap_ofPiece? _ c hc
    · rw [List.nil_append] at h
      exact ne_of_mem_filterMap_ofPiece? p.steps c (h ▸ List.mem_cons_of_mem first hc)

/-- Two dots behind a path are one more component. -/
theorem components_join_parent (p : Path) (hp : p.text ≠ "") :
    (p.join "..").components = p.components ++ [.parent] := by
  have hs : '/' ∉ ("..").toList := by decide
  rw [components_eq, components_eq, lead_join p ".." hs (Or.inl hp), steps_join p ".." hs,
    List.filterMap_append, List.append_assoc]
  rfl

/-- The first steps of a path are those of a path of their own. -/
theorem components_ofComponents (p : Path) (front back : List Component)
    (h : p.components = front ++ back) : (ofComponents front).components = front := by
  have hnames : ∀ s, .name s ∈ front → IsFileName s := fun s hs =>
    isFileName_of_mem_components p s (h ▸ List.mem_append_left back hs)
  have hgrow : ∀ (q : Path) (rest : List Component), q.text ≠ "" →
      (∀ c ∈ rest, c ≠ .root ∧ c ≠ .current) → (∀ s, .name s ∈ rest → IsFileName s) →
      (rest.foldl (fun p step => p.join step.text) q).components = q.components ++ rest := by
    intro q rest
    induction rest generalizing q with
    | nil => simp
    | cons c rest ih =>
        intro hq hkinds hproper
        have hstep : (q.join c.text).components = q.components ++ [c] ∧
            (q.join c.text).text ≠ "" := by
          cases c with
          | root => exact absurd rfl (hkinds _ List.mem_cons_self).1
          | current => exact absurd rfl (hkinds _ List.mem_cons_self).2
          | parent =>
              exact ⟨components_join_parent q hq, text_join_ne_empty q ".." (by decide) (by decide)⟩
          | name s =>
              have hs := hproper s List.mem_cons_self
              exact ⟨components_join q s hs, text_join_ne_empty q s hs.noSlash hs.ne_empty⟩
        rw [List.foldl_cons, ih _ hstep.2 (fun c hc => hkinds c (List.mem_cons_of_mem _ hc))
          (fun s hs => hproper s (List.mem_cons_of_mem _ hs)), hstep.1, List.append_assoc]
        rfl
  cases front with
  | nil => rfl
  | cons first rest =>
      have hstart : ((Path.mk "").join first.text).components = [first] ∧
          ((Path.mk "").join first.text).text ≠ "" := by
        cases first with
        | root => decide
        | current => decide
        | parent => decide
        | name s =>
            have hs := hnames s List.mem_cons_self
            exact ⟨components_join ⟨""⟩ s hs, text_join_ne_empty ⟨""⟩ s hs.noSlash hs.ne_empty⟩
      rw [ofComponents, List.foldl_cons, hgrow _ rest hstart.2 ?_ ?_, hstart.1]
      · rfl
      · intro c hc
        exact ne_of_mem_tail_components p first (rest ++ back) h c (List.mem_append_left _ hc)
      · exact fun s hs => hnames s (List.mem_cons_of_mem _ hs)

/-- A path goes on from its parent by its last name. -/
theorem components_of_parent? (p parent : Path) (name : String) (hparent : p.parent? = some parent)
    (hname : p.fileName? = some name) : p.components = parent.components ++ [.name name] := by
  have hlast : p.components.getLast? = some (.name name) := by
    rw [fileName?] at hname
    split at hname
    · next s hs =>
        cases hname
        exact hs
    · cases hname
  obtain ⟨front, hfront⟩ := List.getLast?_eq_some_iff.mp hlast
  rw [parent?, hlast, hfront, List.dropLast_concat] at hparent
  cases hparent
  rw [components_ofComponents p front _ hfront]
  exact hfront

theorem endsInSlash_append (a s : String) (hs : '/' ∉ s.toList) (hne : s ≠ "") :
    (Path.mk (a ++ s)).endsInSlash = false := by
  have hlist : s.toList ≠ [] := fun h => hne (String.toList_eq_nil_iff.mp h)
  rw [endsInSlash, beq_eq_false_iff_ne, String.toList_append, List.getLast?_append,
    List.getLast?_eq_some_getLast hlist, Option.some_or]
  exact fun h => hs (Option.some.inj h ▸ List.getLast_mem hlist)

theorem endsInSlash_join (p : Path) (s : String) (hs : '/' ∉ s.toList) (hne : s ≠ "") :
    (p.join s).endsInSlash = false := by
  rcases join_cases p s hs with ⟨-, hj⟩ | ⟨q, -, hj⟩ | ⟨-, -, hj⟩ <;> rw [hj]
  · simpa using endsInSlash_append "" s hs hne
  · exact endsInSlash_append (q ++ "/") s hs hne
  · exact endsInSlash_append (p.text ++ "/") s hs hne

/-- The last step of a text with something behind it. -/
theorem steps_append (a s : String) (hs : '/' ∉ s.toList) (hne : s ≠ "") :
    ∃ front last, (Path.mk (a ++ s)).steps = front ++ [last ++ s] ∧ '/' ∉ last.toList := by
  have hword : ∀ last : String, '/' ∉ last.toList →
      (Path.mk (last ++ s)).steps = [last ++ s] := by
    intro last hlast
    have hslash : '/' ∉ (last ++ s).toList := by
      rw [String.toList_append, List.mem_append, not_or]
      exact ⟨hlast, hs⟩
    rw [steps_of_noSlash _ hslash, List.filter_cons_of_pos]
    · rfl
    · simp [hne]
  by_cases ha : '/' ∈ a.toList
  · obtain ⟨back, front, hback, hnot⟩ := List.eq_append_cons_of_mem (List.mem_reverse.mpr ha)
    have htext : a = String.ofList front.reverse ++ "/" ++ String.ofList back.reverse := by
      rw [← String.toList_inj, ← List.reverse_inj, hback]
      simp [String.toList_append]
    refine ⟨(Path.mk (String.ofList front.reverse)).steps, String.ofList back.reverse, ?_, ?_⟩
    · rw [htext, String.append_assoc, steps_slash, hword]
      simpa using hnot
    · simpa using hnot
  · exact ⟨[], a, hword a ha, ha⟩

/-- A path gets longer by a name, and by a slash unless it ends in one. -/
theorem size_join (p : Path) (s : String) (hs : '/' ∉ s.toList) (hp : p.text ≠ "") :
    (p.join s).text.utf8ByteSize =
      p.text.utf8ByteSize + (if p.endsInSlash then 0 else 1) + s.utf8ByteSize := by
  have hone : ("/" : String).utf8ByteSize = 1 := by decide
  rcases join_cases p s hs with ⟨hnil, -⟩ | ⟨q, hq, hj⟩ | ⟨-, hslash, hj⟩
  · exact absurd hnil hp
  · have hslash : p.endsInSlash = true := by
      rw [endsInSlash, hq]
      simp [String.toList_append]
    rw [hj, hslash, if_pos rfl, hq]
    simp only [String.utf8ByteSize_append]
    omega
  · rw [hj, hslash]
    simp only [String.utf8ByteSize_append, Bool.false_eq_true, if_false]
    omega

theorem size_le_join (p : Path) (s : String) (hs : '/' ∉ s.toList) :
    p.text.utf8ByteSize ≤ (p.join s).text.utf8ByteSize := by
  by_cases hp : p.text = ""
  · rw [hp]
    exact Nat.zero_le _
  · rw [size_join p s hs hp]
    omega

/-- A path with names behind it. -/
def extend (p : Path) (names : List String) : Path :=
  names.foldl join p

@[simp] theorem extend_nil (p : Path) : p.extend [] = p :=
  rfl

@[simp] theorem extend_cons (p : Path) (name : String) (names : List String) :
    p.extend (name :: names) = (p.join name).extend names :=
  rfl

theorem extend_append (p : Path) (front back : List String) :
    p.extend (front ++ back) = (p.extend front).extend back :=
  List.foldl_append

theorem extend_concat (p : Path) (names : List String) (name : String) :
    p.extend (names ++ [name]) = (p.extend names).join name :=
  extend_append p names [name]

theorem components_extend (p : Path) (names : List String) (h : ∀ n ∈ names, IsFileName n) :
    (p.extend names).components = p.components ++ names.map .name := by
  induction names generalizing p with
  | nil => simp
  | cons name names ih =>
      rw [extend_cons, ih _ (fun n hn => h n (List.mem_cons_of_mem name hn)),
        components_join p name (h name List.mem_cons_self)]
      simp

/-- Names behind a path that is not empty and does not end in a slash. -/
theorem text_extend (p : Path) (names : List String) (h : ∀ n ∈ names, IsFileName n)
    (hp : p.text ≠ "") (hslash : p.endsInSlash = false) (hne : names ≠ []) :
    (p.extend names).text = p.text ++ "/" ++ "/".intercalate names := by
  induction names generalizing p with
  | nil => exact absurd rfl hne
  | cons name names ih =>
      have hname := h name List.mem_cons_self
      have hj : p.join name = ⟨p.text ++ "/" ++ name⟩ := by
        rcases join_cases p name hname.noSlash with ⟨hnil, -⟩ | ⟨q, hq, -⟩ | ⟨-, -, hj⟩
        · exact absurd hnil hp
        · rw [endsInSlash, hq] at hslash
          simp [String.toList_append] at hslash
        · exact hj
      cases names with
      | nil => rw [extend_cons, extend_nil, hj, String.intercalate_singleton]
      | cons second names =>
          rw [extend_cons, ih (p.join name) (fun n hn => h n (List.mem_cons_of_mem name hn))
            (text_join_ne_empty p name hname.noSlash hname.ne_empty)
            (endsInSlash_join p name hname.noSlash hname.ne_empty) (List.cons_ne_nil _ _), hj,
            String.intercalate_cons_cons]
          simp only [String.append_assoc]

/-- The text of some names. -/
theorem text_ofComponents_names (names : List String) (h : ∀ n ∈ names, IsFileName n) :
    (ofComponents (names.map .name)).text = "/".intercalate names := by
  have hextend : ofComponents (names.map .name) = (Path.mk "").extend names := by
    rw [ofComponents, List.foldl_map]
    rfl
  rw [hextend]
  cases names with
  | nil => rfl
  | cons name names =>
      have hname := h name List.mem_cons_self
      have hj := empty_join name hname.noSlash
      cases names with
      | nil => rw [extend_cons, hj, extend_nil, String.intercalate_singleton]
      | cons second names =>
          rw [extend_cons, hj, text_extend ⟨name⟩ (second :: names)
            (fun n hn => h n (List.mem_cons_of_mem name hn)) hname.ne_empty
            (by simpa using endsInSlash_append "" name hname.noSlash hname.ne_empty)
            (List.cons_ne_nil _ _), String.intercalate_cons_cons]

/-- What is behind a folder's steps is found again. -/
theorem stepsAfter?_append (front back : List Component) :
    stepsAfter? front (front ++ back) = some back := by
  induction front with
  | nil => rfl
  | cons c front ih => simpa [stepsAfter?] using ih

end Path

end SchemaRename
