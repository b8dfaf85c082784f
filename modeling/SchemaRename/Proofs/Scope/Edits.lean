import Mathlib.Data.List.Basic
import SchemaRename.Scope

/-!
# Changing a Scope

What a change of a scope can do to a file.

A scope is asked about three things only: the patterns that exclude files of
the extension, the names that are exempt, and the patterns that include files
of the extension. Two scopes that give the same answers admit the same files,
so lists for other extensions and the exceptions of the including list have no
effect, and the including list has none where there is an excluding one.

Among excluding patterns the first one that covers the name decides, and the
exceptions are asked only if it is not the name itself. A pattern at the end
of the list is looked at last: it can take away a file that no other pattern
covers, and cannot give one back. In front of others it could, by letting an
exception count. For exceptions and for including patterns the place does not
matter, since more of them admit more.

## Main definitions

* `Covers`: The names that a pattern is about.
* `Scope.excluded?`, `Scope.exceptions`, `Scope.included?`: What a scope is
  asked about.

## Theorems

* `matchScope_ne_none_iff`: A pattern matches the names it covers.
* `passesExclusion_eq`: The first pattern that covers a name decides.
* `Scope.allows_eq`: What a scope admits, from what it is asked about.
* `Scope.allows_edited`: What changes of a scope can do.
-/

namespace SchemaRename

open SchemaRename.Text

/-- A pattern covers a name if it is the name, or if it ends with the wildcard
    and the part before its first wildcard starts the name, both in capitals. -/
def Covers (pattern className : String) : Prop :=
  pattern = className ∨ ∃ stem rest, pattern.toList = stem ++ wildcardMark :: rest ∧
    wildcardMark ∉ stem ∧ pattern.toList.getLast? = some wildcardMark ∧
    upperCase stem <+: upperCase className.toList

namespace Scope

/-- The patterns that exclude files of an extension, if there is a list. -/
def excluded? (s : Scope) (extension : String) : Option (List String) :=
  s.exclude.bind (·.patternsFor? extension)

/-- The names that excluding patterns with a wildcard let pass. -/
def exceptions (s : Scope) : List String :=
  (s.exclude.map (·.exceptions)).getD []

/-- The patterns that include files of an extension, if there is a list. -/
def included? (s : Scope) (extension : String) : Option (List String) :=
  s.include_.bind (·.patternsFor? extension)

end Scope

section Patterns

theorem takeWhile_ne_append_cons (mark : Char) (stem rest : List Char) (h : mark ∉ stem) :
    (stem ++ mark :: rest).takeWhile (· != mark) = stem := by
  have hstem : ∀ c ∈ stem, (c != mark) = true := by
    intro c hc
    rw [bne_iff_ne]
    rintro rfl
    exact h hc
  rw [List.takeWhile_append_of_pos hstem, List.takeWhile_cons, if_neg (by simp), List.append_nil]

/-- A pattern matches the names it covers. -/
theorem matchScope_ne_none_iff (pattern className : String) :
    matchScope pattern className ≠ .none ↔ Covers pattern className := by
  unfold matchScope Covers
  by_cases hsame : pattern = className
  · simp [hsame]
  · rw [if_neg (by simpa using hsame)]
    constructor
    · intro h
      split at h
      · next hwild =>
          rw [Bool.and_eq_true, beq_iff_eq, List.isPrefixOf_iff_prefix] at hwild
          rcases List.eq_append_cons_of_mem (List.mem_of_getLast? hwild.1) with
            ⟨stem, rest, hcut, hstem⟩
          refine Or.inr ⟨stem, rest, hcut, hstem, hwild.1, ?_⟩
          rw [← takeWhile_ne_append_cons wildcardMark stem rest hstem, ← hcut]
          exact hwild.2
      · exact absurd rfl h
    · rintro (h | ⟨stem, rest, hcut, hstem, hlast, hprefix⟩)
      · exact absurd h hsame
      · have hstart : pattern.toList.takeWhile (· != wildcardMark) = stem := by
          rw [hcut, takeWhile_ne_append_cons wildcardMark stem rest hstem]
        rw [if_pos]
        · decide
        · rw [Bool.and_eq_true, beq_iff_eq, List.isPrefixOf_iff_prefix, hstart]
          exact ⟨hlast, hprefix⟩

theorem matchScope_eq_exact_iff (pattern className : String) :
    matchScope pattern className = .exact ↔ pattern = className := by
  unfold matchScope
  by_cases hsame : pattern = className
  · simp [hsame]
  · rw [if_neg (by simpa using hsame)]
    constructor
    · intro h
      split at h
      · cases h
      · cases h
    · intro h
      exact absurd h hsame

/-- The first pattern that covers a name decides: the name passes if there is
    none, or if it is on the list of exceptions and is not the pattern. -/
theorem passesExclusion_eq (exceptions : List String) (className : String)
    (patterns : List String) :
    passesExclusion exceptions className patterns =
      (patterns.find? fun p => matchScope p className != .none).all
        fun p => p != className && exceptions.contains className := by
  induction patterns with
  | nil => rfl
  | cons p patterns ih =>
      rw [passesExclusion, List.find?_cons]
      cases hmatch : matchScope p className with
      | none => exact ih
      | exact =>
          rw [(matchScope_eq_exact_iff p className).mp hmatch]
          change false = (className != className && exceptions.contains className)
          rw [bne_self_eq_false, Bool.false_and]
      | wildcard =>
          -- Here the exceptions are asked, since the pattern is not the name itself.
          have hne : p ≠ className := by
            intro hname
            rw [(matchScope_eq_exact_iff p className).mpr hname] at hmatch
            cases hmatch
          change exceptions.contains className = (p != className && exceptions.contains className)
          rw [bne_iff_ne.mpr hne, Bool.true_and]

end Patterns

section Lists

variable (className : String)

/-- A pattern at the end lets nothing pass that was kept out. -/
theorem passesExclusion_append (exceptions patterns more : List String)
    (h : passesExclusion exceptions className patterns = false) :
    passesExclusion exceptions className (patterns ++ more) = false := by
  rw [passesExclusion_eq] at h ⊢
  rw [List.find?_append]
  -- Some pattern has decided, and it is still the first one.
  cases hfind : patterns.find? fun p => matchScope p className != .none with
  | none =>
      rw [hfind] at h
      cases h
  | some p =>
      rw [hfind] at h
      exact h

theorem passesExclusion_of_subset (exceptions exceptions' patterns : List String)
    (hsub : exceptions ⊆ exceptions')
    (h : passesExclusion exceptions className patterns = true) :
    passesExclusion exceptions' className patterns = true := by
  rw [passesExclusion_eq, Option.all_eq_true] at h ⊢
  intro p hp
  have hpass := h p hp
  rw [Bool.and_eq_true, List.contains_iff_mem] at hpass ⊢
  exact ⟨hpass.1, hsub hpass.2⟩

/-- A name that is covered and not exempt is kept out, whichever pattern
    decides. -/
theorem passesExclusion_of_covers (exceptions patterns : List String) (pattern : String)
    (hmem : pattern ∈ patterns) (hcovers : Covers pattern className)
    (hexempt : className ∉ exceptions) :
    passesExclusion exceptions className patterns = false := by
  rw [passesExclusion_eq]
  have hsome : (patterns.find? fun p => matchScope p className != .none).isSome = true := by
    rw [List.find?_isSome]
    exact ⟨pattern, hmem, by simpa using (matchScope_ne_none_iff pattern className).mpr hcovers⟩
  rcases Option.isSome_iff_exists.mp hsome with ⟨p, hp⟩
  rw [hp, Option.all_some, Bool.and_eq_false_iff]
  exact Or.inr (by simpa using hexempt)

theorem passesInclusion_of_subset (patterns patterns' : List String) (hsub : patterns ⊆ patterns')
    (h : passesInclusion className patterns = true) :
    passesInclusion className patterns' = true := by
  unfold passesInclusion at h ⊢
  rw [List.any_eq_true] at h ⊢
  rcases h with ⟨p, hp, hmatch⟩
  exact ⟨p, hsub hp, hmatch⟩

end Lists

namespace Scope

/-- What a scope admits depends on what it is asked about and on nothing
    else. -/
theorem allows_eq (s : Scope) (t : FileTarget) :
    s.allows t =
      match s.excluded? t.extension with
      | some patterns => passesExclusion s.exceptions t.className patterns
      | none =>
        match s.included? t.extension with
        | some patterns => passesInclusion t.className patterns
        | none => true := by
  rcases s with ⟨_ | l, included⟩
  · rfl
  · unfold allows excluded? exceptions
    simp only [Option.bind_some, Option.map_some, Option.getD_some]
    cases l.patternsFor? t.extension with
    | none => rfl
    | some patterns => rfl

/-- Changes of a scope act in the direction they are meant to. A pattern at the
    end of the excluding list admits no file; one more exception turns no file
    away; one more pattern in an including list turns none away; lists for other
    extensions and the exceptions of the including list change nothing, and
    where there is an excluding list the whole including one changes nothing;
    and a file that an excluding pattern covers is turned away unless it is
    exempt. -/
theorem allows_edited (s : Scope) (t : FileTarget) :
    (∀ (s' : Scope) patterns pattern, s.excluded? t.extension = some patterns →
      s'.excluded? t.extension = some (patterns ++ [pattern]) → s'.exceptions = s.exceptions →
      s.allows t = false → s'.allows t = false) ∧
    (∀ s' : Scope, s'.excluded? t.extension = s.excluded? t.extension →
      s'.included? t.extension = s.included? t.extension → s.exceptions ⊆ s'.exceptions →
      s.allows t = true → s'.allows t = true) ∧
    (∀ (s' : Scope) extension before pattern after, s.included? extension = some (before ++ after) →
      s'.included? extension = some (before ++ pattern :: after) →
      (∀ other, other ≠ extension → s'.included? other = s.included? other) →
      s'.exclude = s.exclude → s.allows t = true → s'.allows t = true) ∧
    (∀ s' : Scope, s'.excluded? t.extension = s.excluded? t.extension →
      s'.exceptions = s.exceptions → s'.included? t.extension = s.included? t.extension →
      s'.allows t = s.allows t) ∧
    (∀ (s' : Scope) patterns, s.excluded? t.extension = some patterns → s'.exclude = s.exclude →
      s'.allows t = s.allows t) ∧
    (∀ patterns pattern, s.excluded? t.extension = some patterns → pattern ∈ patterns →
      t.className ∉ s.exceptions → Covers pattern t.className → s.allows t = false) := by
  refine ⟨?_, ?_, ?_, ?_, ?_, ?_⟩
  · intro s' patterns pattern hpatterns hpatterns' hexceptions h
    rw [allows_eq, hpatterns] at h
    rw [allows_eq, hpatterns', hexceptions]
    exact passesExclusion_append t.className _ _ _ h
  · intro s' hexcluded hincluded hsub h
    rw [allows_eq] at h ⊢
    rw [hexcluded, hincluded]
    cases hpatterns : s.excluded? t.extension with
    | none =>
        -- Exceptions are for excluding patterns, and there are none.
        rw [hpatterns] at h
        exact h
    | some patterns =>
        rw [hpatterns] at h
        exact passesExclusion_of_subset t.className _ _ _ hsub h
  · intro s' extension before pattern after hincluded hincluded' hothers hexclude h
    have hexcluded : s'.excluded? t.extension = s.excluded? t.extension := by
      rw [excluded?, hexclude, excluded?]
    have hexceptions : s'.exceptions = s.exceptions := by
      rw [exceptions, hexclude, exceptions]
    rw [allows_eq] at h ⊢
    rw [hexcluded, hexceptions]
    cases hpatterns : s.excluded? t.extension with
    | some patterns =>
        -- An excluding list decides alone.
        rw [hpatterns] at h
        exact h
    | none =>
        rw [hpatterns] at h
        by_cases hextension : t.extension = extension
        · rw [hextension, hincluded] at h
          rw [hextension, hincluded']
          refine passesInclusion_of_subset t.className _ _ ?_ h
          exact List.Sublist.subset ((List.sublist_cons_self pattern after).append_left before)
        · rw [hothers _ hextension]
          exact h
  · intro s' hexcluded hexceptions hincluded
    rw [allows_eq, allows_eq, hexcluded, hexceptions, hincluded]
  · intro s' patterns hpatterns hexclude
    have hpatterns' : s'.excluded? t.extension = some patterns := by
      rw [excluded?, hexclude]
      exact hpatterns
    rw [allows_eq, allows_eq, hpatterns, hpatterns', exceptions, hexclude, exceptions]
  · intro patterns pattern hpatterns hmem hexempt hcovers
    rw [allows_eq, hpatterns]
    exact passesExclusion_of_covers t.className _ _ pattern hmem hcovers hexempt

/-- A scope with both kinds of lists. -/
def accountScope : Scope where
  exclude := some { exceptions := ["AccountHistory"], byExtension := [("cls", ["Account%"])] }
  include_ := some { byExtension := [("cls", ["Bridge"]), ("trigger", ["Legacy%"])] }

/-- One change of each kind: a name at the end of the excluding list, an
    exception, an including pattern in front of another one, lists for other
    extensions, and no including list at all. -/
theorem allows_edited_account :
    Scope.allows ⟨some ⟨["AccountHistory"], [("cls", ["Account%", "AccountHistory"])]⟩,
      accountScope.include_⟩ ⟨"cls", "AccountTrigger"⟩ = false ∧
    Scope.allows ⟨some ⟨["Contact", "AccountHistory"], [("cls", ["Account%"])]⟩,
      accountScope.include_⟩ ⟨"cls", "AccountHistory"⟩ = true ∧
    Scope.allows ⟨accountScope.exclude,
      some ⟨[], [("cls", ["Bridge"]), ("trigger", ["Bridge", "Legacy%"])]⟩⟩
      ⟨"trigger", "LegacyTrigger"⟩ = true ∧
    Scope.allows ⟨some ⟨["AccountHistory"], [("cls", ["Account%"]), ("js", [])]⟩,
      some ⟨["Contact"], [("cls", ["Bridge"])]⟩⟩ ⟨"cls", "Contact"⟩ =
      accountScope.allows ⟨"cls", "Contact"⟩ ∧
    Scope.allows ⟨accountScope.exclude, none⟩ ⟨"cls", "Contact"⟩ =
      accountScope.allows ⟨"cls", "Contact"⟩ ∧
    accountScope.allows ⟨"cls", "accountTrigger"⟩ = false := by
  refine ⟨?_, ?_, ?_, ?_, ?_, ?_⟩
  · exact (allows_edited accountScope ⟨"cls", "AccountTrigger"⟩).1 _ ["Account%"]
      "AccountHistory" rfl rfl rfl (by decide +kernel)
  · exact (allows_edited accountScope ⟨"cls", "AccountHistory"⟩).2.1 _ rfl rfl
      (by decide) (by decide +kernel)
  · refine (allows_edited accountScope ⟨"trigger", "LegacyTrigger"⟩).2.2.1 _ "trigger" []
      "Bridge" ["Legacy%"] rfl rfl ?_ rfl (by decide +kernel)
    intro other hother
    have hfalse : (other == "trigger") = false := beq_eq_false_iff_ne.mpr hother
    simp only [accountScope, included?, Option.bind_some, ScopeList.patternsFor?,
      List.lookup_cons, hfalse]
  · exact (allows_edited accountScope ⟨"cls", "Contact"⟩).2.2.2.1 _ rfl rfl rfl
  · exact (allows_edited accountScope ⟨"cls", "Contact"⟩).2.2.2.2.1 _ ["Account%"] rfl rfl
  · exact (allows_edited accountScope ⟨"cls", "accountTrigger"⟩).2.2.2.2.2 ["Account%"] "Account%"
      rfl (by decide) (by decide)
      (Or.inr ⟨"Account".toList, [], by decide, by decide, by decide, by decide +kernel⟩)

end Scope

end SchemaRename
