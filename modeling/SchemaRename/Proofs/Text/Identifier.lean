import Mathlib.Data.List.Forall2
import SchemaRename.Text.CaseFold

/-!
# Identifier Characters and Case

Which characters can stand for which, once letter case is ignored.

Identifiers are written in ASCII. Up to case, though, a text can spell one
with characters that are no ASCII: the Kelvin sign agrees with `k` and the
long `ſ` with `s`. These two are the only ones, which is read off the table
of folded forms run by run: every other run keeps its characters beyond ASCII.

So two classes are enough. Whatever agrees with a character of an identifier
is an identifier character, and a separator agrees with nothing but itself.

## Main definitions

* `isPlainChar`: The characters identifiers are written with.
* `isIdentifierChar`: The same, with what agrees with them up to case.
* `isSeparator`: All other characters.

## Theorems

* `toNat_lt_of_fold`: Only two characters beyond ASCII fold into it.
* `isIdentifierChar_of_sameFolded`: What agrees with an identifier's
  character.
* `eq_of_sameFolded_separator`: A separator agrees only with itself.
-/

namespace SchemaRename.Text

def isPlainChar (c : Char) : Bool :=
  c.isAlphanum || c == '_'

/-- The characters that a spelling of an identifier can contain: the long `ſ`
    and the Kelvin sign are letters in disguise. -/
def isIdentifierChar (c : Char) : Bool :=
  isPlainChar c || c == '\u017F' || c == '\u212A'

def isSeparator (c : Char) : Bool :=
  !isIdentifierChar c

/-- Whether a run takes all its characters to characters beyond ASCII, on one
    side of the gap that no character has. -/
def CaseRun.staysBeyondAscii (run : CaseRun) : Bool :=
  0x80 ≤ run.first + run.shift &&
    (run.last + run.shift < 0xD800 ||
      0xDFFF < run.first + run.shift && run.last + run.shift < 0x110000)

/-- Two runs lead from beyond ASCII into it, and each has one member. -/
theorem staysBeyondAscii_of_mem_foldRuns : ∀ run ∈ foldRuns,
    run.staysBeyondAscii = true ∨ (run.first = 0x017F ∧ run.last = 0x017F) ∨
      (run.first = 0x212A ∧ run.last = 0x212A) := by
  decide +kernel

theorem toNat_image (run : CaseRun) (n : Nat) (hstays : run.staysBeyondAscii = true)
    (hcovers : run.covers n = true) : 0x80 ≤ (Char.ofNat (run.image n)).toNat := by
  simp only [CaseRun.staysBeyondAscii, CaseRun.covers, Bool.and_eq_true, Bool.or_eq_true,
    decide_eq_true_eq] at hstays hcovers
  have himage : (run.image n : Int) = n + run.shift := by
    rw [CaseRun.image]
    simp only [Int.ofNat_eq_natCast]
    omega
  have hvalid : (run.image n).isValidChar := by
    unfold Nat.isValidChar
    omega
  have htoNat : (Char.ofNat (run.image n)).toNat = run.image n := by
    rw [Char.ofNat, dif_pos hvalid]
    rfl
  rw [htoNat]
  omega

/-- Only the long `ſ` and the Kelvin sign fold from beyond ASCII into it. -/
theorem toNat_lt_of_fold (c : Char) (h : (fold c).toNat < 0x80) :
    c.toNat < 0x80 ∨ c = '\u017F' ∨ c = '\u212A' := by
  by_cases hascii : c.toNat < 0x80
  · exact Or.inl hascii
  · refine Or.inr ?_
    rw [fold, if_neg hascii, shiftedBy] at h
    cases hfind : foldRuns.find? (·.covers c.toNat) with
    | none =>
        rw [hfind] at h
        exact absurd h hascii
    | some run =>
        rw [hfind] at h
        have hcovers : run.covers c.toNat = true := by
          have := List.find?_some hfind
          exact this
        -- A run of one member covers nothing else.
        have hsingle : ∀ d : Char, run.first = d.toNat ∧ run.last = d.toNat → c = d := by
          intro d hd
          simp only [CaseRun.covers, Bool.and_eq_true, decide_eq_true_eq, hd.1, hd.2] at hcovers
          exact Char.toNat_inj.mp (by omega)
        rcases staysBeyondAscii_of_mem_foldRuns run (List.mem_of_find?_eq_some hfind)
          with hstays | hlong | hkelvin
        · exact absurd h (Nat.not_lt.mpr (toNat_image run c.toNat hstays hcovers))
        · exact Or.inl (hsingle '\u017F' hlong)
        · exact Or.inr (hsingle '\u212A' hkelvin)

/-- Folding within ASCII keeps to identifier characters and to separators,
    and leaves separators alone. -/
theorem fold_ascii (c : Char) (h : c.toNat < 0x80) :
    isPlainChar (fold c) = isPlainChar c ∧ (isPlainChar c = false → fold c = c) ∧
      (fold c).toNat < 0x80 := by
  have hall : ∀ n : Fin 0x80, isPlainChar (fold (Char.ofNat n)) = isPlainChar (Char.ofNat n) ∧
      (isPlainChar (Char.ofNat n) = false → fold (Char.ofNat n) = Char.ofNat n) ∧
      (fold (Char.ofNat n)).toNat < 0x80 := by
    decide +kernel
  -- The characters of ASCII are few enough to look at all of them.
  have hc := hall ⟨c.toNat, h⟩
  rw [Char.ofNat_toNat] at hc
  exact hc

theorem toNat_of_isPlainChar (c : Char) (h : isPlainChar c = true) : c.toNat < 0x80 := by
  -- Every class of letters or digits ends at a character of ASCII.
  have hbound : ∀ high : Char, high.toNat < 0x80 → c.val ≤ high.val → c.toNat < 0x80 := by
    intro high hhigh hle
    exact Nat.lt_of_le_of_lt (UInt32.le_iff_toNat_le.mp hle) hhigh
  rw [isPlainChar, Bool.or_eq_true, beq_iff_eq] at h
  rcases h with h | rfl
  · rcases Bool.or_eq_true_iff.mp h with halpha | hdigit
    · rcases Bool.or_eq_true_iff.mp halpha with hupper | hlower
      · exact hbound 'Z' (by decide) (of_decide_eq_true hupper).2
      · exact hbound 'z' (by decide) (of_decide_eq_true (Bool.and_eq_true_iff.mp hlower).2)
    · exact hbound '9' (by decide) (of_decide_eq_true (Bool.and_eq_true_iff.mp hdigit).2)
  · decide

/-- What agrees with a character of an identifier is an identifier
    character. -/
theorem isIdentifierChar_of_sameFolded (x c : Char) (hx : isPlainChar x = true)
    (h : sameFolded x c = true) : isIdentifierChar c = true := by
  rw [sameFolded, beq_iff_eq] at h
  have hfold := fold_ascii x (toNat_of_isPlainChar x hx)
  rcases toNat_lt_of_fold c (by rw [← h]; exact hfold.2.2) with hascii | rfl | rfl
  · rw [isIdentifierChar, ← (fold_ascii c hascii).1, ← h, hfold.1, hx]
    rfl
  · decide
  · decide

/-- A separator of ASCII agrees only with itself. -/
theorem eq_of_sameFolded_separator (x c : Char) (hascii : x.toNat < 0x80)
    (hx : isPlainChar x = false) (h : sameFolded x c = true) : c = x := by
  rw [sameFolded, beq_iff_eq] at h
  have hfold := fold_ascii x hascii
  rw [hfold.2.1 hx] at h
  rcases toNat_lt_of_fold c (by rw [← h]; exact hascii) with hc | rfl | rfl
  · have hplain : isPlainChar c = false := by rw [← (fold_ascii c hc).1, ← h, hx]
    rw [h, (fold_ascii c hc).2.1 hplain]
  · exact absurd hx (by rw [h]; decide)
  · exact absurd hx (by rw [h]; decide)

end SchemaRename.Text
