import Mathlib.Data.List.Sort
import SchemaRename.FileTree.Path

/-!
# The Order of Paths

Paths are in order, and only paths that say the same are equal in it.

The order compares steps first by their kind and then by their text, and paths
step by step. So it is a lexicographic order twice over, which makes it total
and transitive. A list of paths that is put in order goes up with every path,
except where two paths say the same.

## Main definitions

* `Path.lt`: Whether a path comes before another one.

## Theorems

* `inOrder_eq_insertionSort`: How a list is put in order.
* `Path.lt_iff`: What comes before another path does not say the same.
* `Path.pairwise_inOrder`: A list that was put in order is in order.
* `Path.pairwise_lt_inOrder_iff`: When it goes up with every path.
-/

namespace SchemaRename

/-- A list is put in order by inserting its members from the back. -/
theorem inOrder_eq_insertionSort {α : Type} (le : α → α → Bool) (l : List α) :
    inOrder le l = l.insertionSort fun a b => le a b = true := by
  have hinsert : ∀ (a : α) (l : List α),
      insertInOrder le a l = l.orderedInsert (fun a b => le a b = true) a := by
    intro a l
    induction l with
    | nil => rfl
    | cons b l ih => rw [insertInOrder, List.orderedInsert_cons, ih]
  induction l with
  | nil => rfl
  | cons a l ih =>
      rw [List.insertionSort_cons, ← ih, ← hinsert]
      rfl

/-- Steps are compared by their kind and then by their text, which only names
    differ in. -/
theorem Component.order_eq :
    Component.order = compareLex (compareOn Component.rank) (compareOn Component.text) := by
  funext a b
  cases a <;> cases b <;> simp [order, compareLex, compareOn, rank, text, Ordering.then]

instance : Std.TransCmp Component.order := by
  rw [Component.order_eq]
  infer_instance

instance : Std.LawfulEqCmp Component.order where
  compare_self {a} := by cases a <;> simp [Component.order]
  eq_of_compare {a b} h := by
    cases a <;> cases b <;> simp_all [Component.order, Component.rank]

namespace Path

theorem orderSteps_eq : orderSteps = List.compareLex Component.order := by
  funext a b
  induction a generalizing b with
  | nil => cases b <;> rfl
  | cons a as ih =>
      cases b with
      | nil => rfl
      | cons b bs =>
          rw [orderSteps, List.compareLex_cons_cons, ih]

instance : Std.TransCmp orderSteps := by
  rw [orderSteps_eq]
  infer_instance

instance : Std.LawfulEqCmp orderSteps := by
  rw [orderSteps_eq]
  infer_instance

/-- Whether a path comes before another one. -/
def lt (p q : Path) : Bool :=
  orderSteps p.components q.components == .lt

theorem le_eq_isLE (p q : Path) : p.le q = (orderSteps p.components q.components).isLE := by
  rw [le]
  cases orderSteps p.components q.components <;> rfl

/-- A path comes before another one if it is in order with it and does not say
    the same. -/
theorem lt_iff (p q : Path) : p.lt q = true ↔ p.le q = true ∧ p.same q = false := by
  have hsame : p.same q = true ↔ orderSteps p.components q.components = .eq := by
    rw [same, beq_iff_eq, Std.LawfulEqCmp.compare_eq_iff_eq]
  rw [← Bool.not_eq_true, hsame, lt, le_eq_isLE]
  cases orderSteps p.components q.components <;> decide

instance : IsTrans Path fun p q => p.le q = true where
  trans p q r hpq hqr := by
    rw [le_eq_isLE] at hpq hqr ⊢
    exact Std.TransCmp.isLE_trans hpq hqr

instance : Std.Total fun p q : Path => p.le q = true where
  total p q := by
    have hswap : orderSteps q.components p.components =
        (orderSteps p.components q.components).swap := Std.OrientedCmp.eq_swap
    rw [le_eq_isLE, le_eq_isLE, hswap]
    cases orderSteps p.components q.components <;> simp

/-- Paths that were put in order are in order. -/
theorem pairwise_inOrder (paths : List Path) :
    (inOrder le paths).Pairwise fun p q => p.le q = true := by
  rw [inOrder_eq_insertionSort]
  exact List.pairwise_insertionSort _ paths

theorem same_comm (p q : Path) : p.same q = q.same p :=
  Bool.eq_iff_iff.mpr (by rw [same, same, beq_iff_eq, beq_iff_eq, eq_comm])

/-- Paths that were put in order go up with every path exactly if no two of
    them say the same. -/
theorem pairwise_lt_inOrder_iff (paths : List Path) :
    (inOrder le paths).Pairwise (fun p q => p.lt q = true) ↔
      paths.Pairwise fun p q => p.same q = false := by
  have hperm := (inOrder_perm le paths).pairwise_iff (R := fun p q => p.same q = false)
    fun {p q} h => by rwa [same_comm]
  rw [← hperm]
  refine ⟨fun h => h.imp fun {p q} hlt => ((lt_iff p q).mp hlt).2, fun h => ?_⟩
  exact (pairwise_inOrder paths).imp₂ (fun p q hle hne => (lt_iff p q).mpr ⟨hle, hne⟩) h

end Path

end SchemaRename
