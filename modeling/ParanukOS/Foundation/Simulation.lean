import Mathlib.Data.List.Forall2
import Mathlib.Logic.Relation
import ParanukOS.Foundation.Checked

/-!
# Traces and simulations

A system makes steps with labels.  `Trace step s trace` says that the states of `trace` follow each
other, from `s` on; every state stands next to the label of the step that leads to it.  A relation
between the states of two systems is a simulation if the second one can answer every step of the
first one by a step with the same label; then it can answer every trace.

`replay` computes a trace from its labels, when the steps are a function.
-/

namespace Foundation

variable {σ τ α : Type}

/-- Steps one after the other. -/
inductive Trace (step : σ → α → σ → Prop) : σ → List (α × σ) → Prop
  | nil (s : σ) : Trace step s []
  | cons {s s' : σ} {a : α} {rest : List (α × σ)} (hstep : step s a s')
      (hrest : Trace step s' rest) : Trace step s ((a, s') :: rest)

/-- The second system answers every step of the first one. -/
def IsSimulation (step : σ → α → σ → Prop) (step' : τ → α → τ → Prop) (r : σ → τ → Prop) : Prop :=
  ∀ s t a s', r s t → step s a s' → ∃ t', step' t a t' ∧ r s' t'

variable {step : σ → α → σ → Prop} {step' : τ → α → τ → Prop} {r : σ → τ → Prop}

/-- The second system answers every trace of the first one. -/
lemma IsSimulation.trace (h : IsSimulation step step' r) {s : σ} {t : τ} {trace : List (α × σ)}
    (hr : r s t) (htrace : Trace step s trace) :
    ∃ trace', Trace step' t trace' ∧
      List.Forall₂ (fun x y => x.1 = y.1 ∧ r x.2 y.2) trace trace' := by
  induction htrace generalizing t with
  | nil s => exact ⟨[], .nil t, .nil⟩
  | cons hstep _ ih =>
    obtain ⟨t', hstep', hr'⟩ := h _ _ _ _ hr hstep
    obtain ⟨trace', htrace', hall⟩ := ih hr'
    exact ⟨_, .cons hstep' htrace', .cons ⟨rfl, hr'⟩ hall⟩

/-- Every state of a trace is reached by steps of a system that each step of the first one is a step
of. -/
lemma Trace.reached {s : σ} {trace : List (α × σ)} (h : Trace step s trace) {f : σ → τ}
    {next : τ → τ → Prop} (hnext : ∀ s a s', step s a s' → f s = f s' ∨ next (f s) (f s')) :
    ∀ x ∈ trace, Relation.ReflTransGen next (f s) (f x.2) := by
  induction h with
  | nil s => exact fun x hx => absurd hx List.not_mem_nil
  | @cons s s' a rest hstep _ ih =>
    intro x hx
    have hfirst : Relation.ReflTransGen next (f s) (f s') := by
      rcases hnext s a s' hstep with heq | hone
      · exact heq ▸ .refl
      · exact .single hone
    rcases List.mem_cons.mp hx with rfl | hx
    · exact hfirst
    · exact hfirst.trans (ih x hx)

/-! ## Replay -/

/-- Make the steps with the given labels, as long as each of them passes a test. -/
def replay (test : σ → α → Bool) (next : σ → α → Checked σ) :
    List α → σ → Checked (Option (List (α × σ)))
  | [], _ => return some []
  | a :: labels, s => do
    if test s a then
      let s' ← next s a
      let rest ← replay test next labels s'
      return rest.map ((a, s') :: ·)
    else return none

variable {test : σ → α → Bool} {next : σ → α → Checked σ}

lemma trace_of_replay {labels : List α} : ∀ {s : σ} {trace : List (α × σ)},
    replay test next labels s = .ok (some trace) →
      Trace (fun s a s' => test s a = true ∧ next s a = .ok s') s trace := by
  induction labels with
  | nil =>
    intro s trace h
    obtain rfl := Option.some.inj (Except.ok.inj h)
    exact .nil s
  | cons a labels ih =>
    intro s trace h
    rw [replay] at h
    split_ifs at h with htest
    · obtain ⟨s', hnext, h⟩ := Checked.bind_eq_ok.mp h
      obtain ⟨rest, hrest, h⟩ := Checked.bind_eq_ok.mp h
      obtain ⟨tail, rfl, rfl⟩ := Option.map_eq_some_iff.mp (Except.ok.inj h)
      exact .cons ⟨htest, hnext⟩ (ih hrest)
    · cases h

/-- A trace with a property that can be tested. -/
lemma exists_trace_of_replay {labels : List α} {s : σ} {p : List (α × σ) → Bool}
    (h : Checked.okAnd (replay test next labels s) (fun x => x.any p) = true) :
    ∃ trace, Trace (fun s a s' => test s a = true ∧ next s a = .ok s') s trace ∧
      p trace = true := by
  obtain ⟨x, hx, hp⟩ := Checked.okAnd_eq_true_iff.mp h
  obtain ⟨trace, rfl, hp⟩ := (Option.any_eq_true _ _).mp hp
  exact ⟨trace, trace_of_replay hx, hp⟩

/-- A run to a state with a property that can be tested. -/
lemma exists_reached_of_replay {labels : List α} {s : σ} {p : σ → Bool}
    (h : Checked.okAnd (replay test next labels s)
      (fun x => x.any fun trace => trace.getLast?.any fun y => p y.2) = true) :
    ∃ s', Relation.ReflTransGen (fun s s' => ∃ a, test s a = true ∧ next s a = .ok s') s s' ∧
      p s' = true := by
  obtain ⟨trace, htrace, hp⟩ := exists_trace_of_replay h
  obtain ⟨last, hlast, hp⟩ := (Option.any_eq_true _ _).mp hp
  exact ⟨last.2, htrace.reached (f := id) (fun _ a _ hstep => .inr ⟨a, hstep⟩) last
    (List.mem_of_getLast? hlast), hp⟩

end Foundation
