import Mathlib.Data.Finset.Basic
import Mathlib.Data.Finset.Lattice.Lemmas
import Mathlib.Data.Finset.SDiff

/-!
# Portions

Things that are handed out to owners.  `Portions S portion` says that every owner has some of the
things in `S`, and that no thing has two owners; a thing in `S` may have none.  An owner can take
new things, give things back, forget them or pass them on, and all of this keeps the portions apart.
-/

namespace Foundation

variable {ω ι : Type*} [DecidableEq ω] [DecidableEq ι] {S new : Finset ι}
  {portion : ω → Finset ι}

/-- What the owners have lies in `S`, and different owners have different things. -/
structure Portions (S : Finset ι) (portion : ω → Finset ι) : Prop where
  subset : ∀ o, portion o ⊆ S
  disjoint : ∀ o o', o ≠ o' → Disjoint (portion o) (portion o')

namespace Portions

/-- An owner that forgets what it has takes new things. -/
theorem take (h : Portions S portion) (o : ω) (hnew : Disjoint S new) :
    Portions (S ∪ new) (Function.update portion o new) := by
  constructor
  · intro i
    rcases eq_or_ne i o with rfl | hi
    · rw [Function.update_self]
      exact Finset.subset_union_right
    · rw [Function.update_of_ne hi]
      exact (h.subset i).trans Finset.subset_union_left
  · intro i j hne
    rcases eq_or_ne i o with rfl | hi
    · rw [Function.update_self, Function.update_of_ne hne.symm]
      exact (hnew.mono_left (h.subset j)).symm
    rcases eq_or_ne j o with rfl | hj
    · rw [Function.update_self, Function.update_of_ne hi]
      exact hnew.mono_left (h.subset i)
    rw [Function.update_of_ne hi, Function.update_of_ne hj]
    exact h.disjoint i j hne

/-- An owner forgets what it has. -/
theorem drop (h : Portions S portion) (o : ω) : Portions S (Function.update portion o ∅) := by
  have hdropped := h.take o (Finset.disjoint_empty_right S)
  rwa [Finset.union_empty] at hdropped

/-- An owner gives back what it has. -/
theorem give (h : Portions S portion) (o : ω) :
    Portions (S \ portion o) (Function.update portion o ∅) := by
  refine ⟨fun i => ?_, (h.drop o).disjoint⟩
  rcases eq_or_ne i o with rfl | hi
  · rw [Function.update_self]
    exact Finset.empty_subset _
  · rw [Function.update_of_ne hi]
    exact Finset.subset_sdiff.mpr ⟨h.subset i, h.disjoint i o hi⟩

/-- An owner passes on what it has to another one, which forgets what it had. -/
theorem pass (h : Portions S portion) (o o' : ω) :
    Portions S (Function.update (Function.update portion o ∅) o' (portion o)) := by
  -- it gives it back, and the other one takes it
  have hapart : Disjoint (S \ portion o) (portion o) := Finset.sdiff_disjoint
  have hpassed := (h.give o).take o' hapart
  rwa [Finset.sdiff_union_of_subset (h.subset o)] at hpassed

end Portions

end Foundation
