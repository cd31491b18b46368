import Mathlib.Algebra.BigOperators.Group.List.Basic
import Mathlib.Algebra.GroupWithZero.Nat
import Mathlib.Data.Finset.Card

/-!
# Counting with repetition

A list of objects, each with a finite set.  The sum of the sizes counts an element once for every
object whose set contains it.  It is the size of the union exactly when the sets of any two objects
of the list are disjoint.
-/

namespace Foundation

variable {α β : Type*} [DecidableEq β]

/-- The union of the sets of a list. -/
def unionOf (f : α → Finset β) : List α → Finset β
  | [] => ∅
  | x :: l => f x ∪ unionOf f l

@[simp] lemma mem_unionOf {f : α → Finset β} {l : List α} {b : β} :
    b ∈ unionOf f l ↔ ∃ x ∈ l, b ∈ f x := by
  induction l with
  | nil => simp [unionOf]
  | cons x l ih => simp [unionOf, ih]

lemma disjoint_unionOf_right {f : α → Finset β} {l : List α} {s : Finset β} :
    Disjoint s (unionOf f l) ↔ ∀ x ∈ l, Disjoint s (f x) := by
  simp only [Finset.disjoint_left, mem_unionOf, not_exists, not_and]
  exact ⟨fun h x hx b hb => h hb x hx, fun h b hb x hx => h x hx hb⟩

lemma card_unionOf_le (f : α → Finset β) (l : List α) :
    (unionOf f l).card ≤ (l.map fun x => (f x).card).sum := by
  induction l with
  | nil => exact le_rfl
  | cons x l ih =>
    rw [List.map_cons, List.sum_cons, unionOf]
    exact (Finset.card_union_le _ _).trans (Nat.add_le_add_left ih _)

/-- The sum of the sizes is the size of the union if and only if nothing is counted twice. -/
theorem sum_card_eq_card_unionOf_iff (f : α → Finset β) (l : List α) :
    (l.map fun x => (f x).card).sum = (unionOf f l).card ↔
      l.Pairwise fun x y => Disjoint (f x) (f y) := by
  induction l with
  | nil => exact ⟨fun _ => .nil, fun _ => rfl⟩
  | cons x l ih =>
    have hle := card_unionOf_le f l
    have hunion := Finset.card_union_add_card_inter (f x) (unionOf f l)
    rw [List.pairwise_cons, ← ih, ← disjoint_unionOf_right, Finset.disjoint_iff_inter_eq_empty,
      ← Finset.card_eq_zero, List.map_cons, List.sum_cons, unionOf]
    omega

end Foundation
