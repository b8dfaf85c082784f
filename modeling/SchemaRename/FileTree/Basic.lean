import SchemaRename.FileTree.Path

/-!
# File Trees

The files a run works on, as a value.

Every pass of the tool is a function from a tree to a tree and a report, so a
statement about what a pass leaves alone is a statement about two values. A
tree is flat: each entry stands under its full location, the list of names
from the root down. What an operation does is then said once for all
locations, through the view `get?`.

The content of a file is text, or bytes that are no text. The tool reads and
writes text only; it meets other content when it copies files and when it
finds that a file cannot be read.

## Main definitions

* `Location`: The names that lead from the root to an entry.
* `Content`, `Entry`: What a location holds.
* `FileTree`: Entries and the folder that relative paths start from.
* `FileTree.get?`: The entry at a location.
* `FileTree.insert`, `FileTree.erase`, `FileTree.eraseBelow`: The changes
  that all operations are made of.
* `FileTree.children`: The names in a folder, in order.
* `OsError`: Why an operation on a tree fails.

## Theorems

* `get?_insert_self`, `get?_insert_of_ne`: A location holds what was put
  there last, and other locations do not notice.
* `get?_erase_self`, `get?_erase_of_ne`: The same for removal.
-/

namespace SchemaRename

/-- The names that lead from the root to an entry. -/
abbrev Location := List String

/-- The content of a file. -/
inductive Content where
  | text (s : String)
  /-- Bytes that are not valid text. -/
  | bytes (b : List UInt8)
deriving Repr, DecidableEq

/-- The content that some bytes are. -/
def Content.ofBytes (b : List UInt8) : Content :=
  match String.fromUTF8? ⟨b.toArray⟩ with
  | some s => .text s
  | none => .bytes b

/-- What a location holds. -/
inductive Entry where
  | folder
  | file (content : Content)
  /-- A symbolic link, by the text of its target. -/
  | link (target : String)
deriving Repr, DecidableEq

/-- Why an operation on a tree fails. -/
inductive OsError where
  | notFound
  | busy
  | alreadyExists
  | notFolder
  | isFolder
  | invalidArgument
  | nameTooLong
  | notEmpty
  | tooManyLinks
  | invalidText
deriving Repr, DecidableEq

/-- The system's words for a failure. -/
def OsError.message : OsError → String
  | .notFound => "No such file or directory (os error 2)"
  | .busy => "Device or resource busy (os error 16)"
  | .alreadyExists => "File exists (os error 17)"
  | .notFolder => "Not a directory (os error 20)"
  | .isFolder => "Is a directory (os error 21)"
  | .invalidArgument => "Invalid argument (os error 22)"
  | .nameTooLong => "File name too long (os error 36)"
  | .notEmpty => "Directory not empty (os error 39)"
  | .tooManyLinks => "Too many levels of symbolic links (os error 40)"
  | .invalidText => "stream did not contain valid UTF-8"

/-- Entries by location, and the folder that relative paths start from. The
    root is a folder and needs no entry. -/
structure FileTree where
  entries : List (Location × Entry) := []
  workingFolder : Location := []
deriving Repr, DecidableEq

namespace FileTree

/-- The entry at a location. -/
def get? (t : FileTree) (l : Location) : Option Entry :=
  if l.isEmpty then some .folder else t.entries.lookup l

/-- Removes the entry at a location. -/
def erase (t : FileTree) (l : Location) : FileTree :=
  { t with entries := t.entries.filter fun e => e.1 != l }

/-- Puts an entry at a location, in place of the one that may be there. -/
def insert (t : FileTree) (l : Location) (e : Entry) : FileTree :=
  if (t.entries.lookup l).isSome then
    { t with entries := t.entries.map fun old => if old.1 == l then (l, e) else old }
  else { t with entries := t.entries ++ [(l, e)] }

/-- Removes everything strictly below a location. -/
def eraseBelow (t : FileTree) (l : Location) : FileTree :=
  { t with entries := t.entries.filter fun e => e.1 == l || !l.isPrefixOf e.1 }

/-- The name of a location directly inside a folder. -/
def childName? : Location → Location → Option String
  | [], [name] => some name
  | a :: as, b :: bs => if a == b then childName? as bs else none
  | _, _ => none

/-- The names in a folder, in order. -/
def children (t : FileTree) (l : Location) : List String :=
  inOrder (· ≤ ·) (t.entries.filterMap fun e => childName? l e.1)

theorem get?_root (t : FileTree) : t.get? [] = some .folder := by
  simp [get?]

theorem lookup_map_replace (l m : Location) (e : Entry) (entries : List (Location × Entry)) :
    (entries.map fun old => if old.1 == l then (l, e) else old).lookup m =
      if m = l then (entries.lookup l).map fun _ => e else entries.lookup m := by
  induction entries with
  | nil => simp
  | cons x rest ih =>
    obtain ⟨k, v⟩ := x
    by_cases hk : k = l
    · subst hk
      by_cases hm : m = k
      · simp [hm]
      · have hmk : (m == k) = false := by simpa using hm
        simp only [List.map_cons, beq_self_eq_true, if_true, List.lookup_cons, hmk, ih, hm,
          if_false]
    · have hkl : (k == l) = false := by simpa using hk
      simp only [List.map_cons, hkl, Bool.false_eq_true, if_false, List.lookup_cons]
      by_cases hm : m = l
      · subst hm
        have hmk : (m == k) = false := by simpa using fun h => hk h.symm
        simp only [hmk, ih, if_true]
      · cases hmk : m == k <;> simp only [ih, hm, if_false]

theorem lookup_append_singleton (l m : Location) (e : Entry) (entries : List (Location × Entry))
    (h : entries.lookup l = none) :
    (entries ++ [(l, e)]).lookup m = if m = l then some e else entries.lookup m := by
  induction entries with
  | nil =>
    by_cases hm : m = l
    · simp [hm]
    · have hml : (m == l) = false := by simpa using hm
      simp [List.lookup_cons, hm, hml]
  | cons x rest ih =>
    obtain ⟨k, v⟩ := x
    simp only [List.lookup_cons] at h
    cases hlk : l == k with
    | true => simp [hlk] at h
    | false =>
      simp only [hlk] at h
      simp only [List.cons_append, List.lookup_cons]
      cases hmk : m == k with
      | true =>
        have hk : m = k := by simpa using hmk
        have hne : m ≠ l := fun hml => by simp [← hml, hk] at hlk
        simp [hne]
      | false => simpa [hmk] using ih h

/-- A location holds what was put there last. -/
theorem get?_insert_self (t : FileTree) {l : Location} (hl : l ≠ []) (e : Entry) :
    (t.insert l e).get? l = some e := by
  have hl' : l.isEmpty = false := by cases l <;> simp_all
  simp only [get?, insert, hl', Bool.false_eq_true, if_false]
  split
  · next h =>
    rw [lookup_map_replace]
    obtain ⟨v, hv⟩ := Option.isSome_iff_exists.1 h
    simp [hv]
  · next h =>
    rw [lookup_append_singleton l l e t.entries (Option.not_isSome_iff_eq_none.1 h)]
    simp

/-- Other locations do not notice an insertion. -/
theorem get?_insert_of_ne (t : FileTree) {l m : Location} (hm : m ≠ l) (e : Entry) :
    (t.insert l e).get? m = t.get? m := by
  simp only [get?, insert]
  split
  · rfl
  · split
    · rw [lookup_map_replace]
      simp [hm]
    · next h =>
      rw [lookup_append_singleton l m e t.entries (Option.not_isSome_iff_eq_none.1 h)]
      simp [hm]

theorem lookup_filter_ne (l m : Location) (entries : List (Location × Entry)) :
    (entries.filter fun e => e.1 != l).lookup m =
      if m = l then none else entries.lookup m := by
  induction entries with
  | nil => simp
  | cons x rest ih =>
    obtain ⟨k, v⟩ := x
    by_cases hk : k = l
    · subst hk
      have hkk : (k != k) = false := by simp
      by_cases hm : m = k
      · subst hm
        simp only [List.filter_cons, hkk, Bool.false_eq_true, if_false, ih, if_true]
      · have hmk : (m == k) = false := by simpa using hm
        simp only [List.filter_cons, hkk, Bool.false_eq_true, if_false, List.lookup_cons, hmk, ih,
          hm]
    · have hkl : (k != l) = true := by simpa using hk
      simp only [List.filter_cons, hkl, if_true, List.lookup_cons]
      cases hmk : m == k with
      | true =>
        have hmk' : m = k := by simpa using hmk
        simp [hmk', hk]
      | false => simp only [ih]

/-- Nothing is left at a location that was removed. -/
theorem get?_erase_self (t : FileTree) {l : Location} (hl : l ≠ []) :
    (t.erase l).get? l = none := by
  have hl' : l.isEmpty = false := by cases l <;> simp_all
  simp [get?, erase, hl', lookup_filter_ne]

/-- Other locations do not notice a removal. -/
theorem get?_erase_of_ne (t : FileTree) {l m : Location} (hm : m ≠ l) :
    (t.erase l).get? m = t.get? m := by
  simp [get?, erase, lookup_filter_ne, hm]

end FileTree

end SchemaRename
