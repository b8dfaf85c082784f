/-!
# Cutting Texts

What cutting a text at a character leaves.

The pieces do not hold the character they were cut at. When every character
is replaced by a text of its own, and the character to cut at only by itself,
cutting and replacing can change places.

## Theorems

* `not_mem_of_mem_splitOn`: Pieces do not hold the character.
* `splitOn_word_append`: What holds no separator goes to the first piece.
* `splitOn_flatMap`: The pieces of a text with its characters replaced.
-/

namespace SchemaRename.Text

theorem not_mem_of_mem_splitOn (c : Char) (text : List Char) :
    ∀ piece ∈ text.splitOn c, c ∉ piece := by
  induction text with
  | nil =>
      intro piece hpiece
      rw [List.splitOn_nil, List.mem_singleton] at hpiece
      rw [hpiece]
      exact List.not_mem_nil
  | cons d text ih =>
      intro piece hpiece
      rw [List.splitOn_cons_eq_if_modifyHead] at hpiece
      split at hpiece
      · rcases List.mem_cons.mp hpiece with rfl | hpiece
        · exact List.not_mem_nil
        · exact ih piece hpiece
      · rename_i hd
        rcases List.exists_cons_of_ne_nil (List.splitOn_ne_nil c text) with ⟨first, rest, hsplit⟩
        rw [hsplit, List.modifyHead_cons, List.mem_cons] at hpiece
        rw [hsplit] at ih
        rcases hpiece with rfl | hpiece
        · intro hc
          rcases List.mem_cons.mp hc with rfl | hc
          · exact hd (beq_self_eq_true c)
          · exact ih first List.mem_cons_self hc
        · exact ih piece (List.mem_cons_of_mem first hpiece)

/-- What holds no separator goes to the first piece. -/
theorem splitOn_word_append (sep : Char) (word : List Char) (hword : sep ∉ word)
    (text : List Char) :
    (word ++ text).splitOn sep = (text.splitOn sep).modifyHead (word ++ ·) := by
  rcases List.exists_cons_of_ne_nil (List.splitOn_ne_nil sep text) with ⟨first, rest, htext⟩
  induction word with
  | nil => rw [List.nil_append, htext, List.modifyHead_cons, List.nil_append]
  | cons d word ih =>
      rw [List.mem_cons, not_or] at hword
      rw [List.cons_append, List.splitOn_cons_eq_if_modifyHead,
        if_neg (by simpa using Ne.symm hword.1), ih hword.2, htext]
      rfl

/-- The pieces of a text with its characters replaced, where the character to
    cut at stands for itself and no other character brings it in. -/
theorem splitOn_flatMap (sep : Char) (spell : Char → List Char) (hsep : spell sep = [sep])
    (hspell : ∀ c, c ≠ sep → sep ∉ spell c) (text : List Char) :
    (text.flatMap spell).splitOn sep = (text.splitOn sep).map (·.flatMap spell) := by
  induction text with
  | nil => simp
  | cons c text ih =>
      rw [List.flatMap_cons, List.splitOn_cons_eq_if_modifyHead]
      by_cases hc : c = sep
      · subst hc
        rw [hsep, if_pos (beq_self_eq_true c)]
        have hcut := List.splitOn_append_cons_self (a := c) [] (text.flatMap spell)
        rw [List.nil_append, List.splitOn_nil, ih] at hcut
        exact hcut
      · rw [if_neg (by simpa using hc)]
        rcases List.exists_cons_of_ne_nil (List.splitOn_ne_nil sep text) with
          ⟨first, rest, hsplit⟩
        rw [hsplit, List.map_cons] at ih
        rw [hsplit, List.modifyHead_cons, List.map_cons, List.flatMap_cons]
        rw [splitOn_word_append sep (spell c) (hspell c hc), ih]
        rfl

end SchemaRename.Text
