import ParanukOS.Foundation.Checked

/-!
# Loops with a bound on their rounds

A `while` loop that counts its rounds and gives up after too many of them is `loopAtMost body late
n`: the body of a round ends the loop with a result or goes on with a new state, and `late` gives
the result after `n` rounds.  `Rounds body k s s'` says that `k` rounds go on, from `s` to `s'`.

The two main rules need no invariant: the loop returns exactly when every round that is reached
does, and its result is that of the round that ends it.
-/

namespace Foundation

variable {σ β : Type}

/-- What a round does: it ends the loop, or it goes on. -/
inductive Round (σ β : Type) where
  | done (b : β)
  | next (s : σ)

/-- The loop with at most `n` rounds. -/
def loopAtMost (body : σ → Checked (Round σ β)) (late : σ → β) : ℕ → σ → Checked β
  | 0, s => return late s
  | n + 1, s => do
    match ← body s with
    | .done b => return b
    | .next s => loopAtMost body late n s

/-- So many rounds go on from the first state to the second. -/
inductive Rounds (body : σ → Checked (Round σ β)) : ℕ → σ → σ → Prop
  | refl (s : σ) : Rounds body 0 s s
  | step {n : ℕ} {s s₁ s' : σ} (hbody : body s = .ok (.next s₁)) (hrest : Rounds body n s₁ s') :
      Rounds body (n + 1) s s'

section Rules

variable {body : σ → Checked (Round σ β)} {late : σ → β} {n k : ℕ} {s s' s'' : σ} {b : β}

lemma loopAtMost_of_done (h : body s = .ok (.done b)) :
    loopAtMost body late (n + 1) s = .ok b := by
  rw [loopAtMost, h]
  rfl

lemma loopAtMost_of_next (h : body s = .ok (.next s')) :
    loopAtMost body late (n + 1) s = loopAtMost body late n s' := by
  rw [loopAtMost, h]
  rfl

lemma loopAtMost_of_error {e : Panic} (h : body s = .error e) :
    loopAtMost body late (n + 1) s = .error e := by
  rw [loopAtMost, h]
  rfl

/-- A loop goes on where its first rounds lead. -/
lemma Rounds.loopAtMost_eq (h : Rounds body k s s') :
    loopAtMost body late (k + n) s = loopAtMost body late n s' := by
  induction h with
  | refl s => rw [Nat.zero_add]
  | step hbody _ ih => rw [Nat.add_right_comm, loopAtMost_of_next hbody, ih]

/-- What all rounds keep holds wherever they lead.  The property may count the rounds. -/
lemma Rounds.inv {P : ℕ → σ → Prop} (h : Rounds body k s s') (hs : P n s)
    (hbody : ∀ i s s', P i s → body s = .ok (.next s') → P (i + 1) s') : P (n + k) s' := by
  induction h generalizing n with
  | refl s => exact hs
  | step hfirst _ ih =>
    rw [← Nat.add_assoc, Nat.add_right_comm]
    exact ih (hbody _ _ _ hs hfirst)

/-- The loop returns if and only if every round that is reached does. -/
theorem loopAtMost_returns_iff : (∃ b, loopAtMost body late n s = .ok b) ↔
    ∀ k < n, ∀ s', Rounds body k s s' → ∃ r, body s' = .ok r := by
  induction n generalizing s with
  | zero => exact ⟨fun _ k hk => absurd hk (Nat.not_lt_zero k), fun _ => ⟨_, rfl⟩⟩
  | succ n ih =>
    cases hbody : body s with
    | error e =>
      rw [loopAtMost_of_error hbody]
      refine ⟨fun ⟨b, hb⟩ => ?_, fun h => ?_⟩
      · cases hb
      · obtain ⟨r, hr⟩ := h 0 (Nat.succ_pos n) s (.refl s)
        rw [hbody] at hr
        cases hr
    | ok r =>
      cases r with
      | done b =>
        refine ⟨fun _ k _ s' hrounds => ?_, fun _ => ⟨b, loopAtMost_of_done hbody⟩⟩
        cases hrounds with
        | refl => exact ⟨_, hbody⟩
        | step hfirst _ =>
          rw [hbody] at hfirst
          cases hfirst
      | next s₁ =>
        rw [loopAtMost_of_next hbody, ih]
        constructor
        · intro h k hk s' hrounds
          cases hrounds with
          | refl => exact ⟨_, hbody⟩
          | step hfirst hrest =>
            obtain rfl := Round.next.inj (Except.ok.inj (hbody.symm.trans hfirst))
            exact h _ (Nat.lt_of_succ_lt_succ hk) s' hrest
        · exact fun h k hk s' hrest => h (k + 1) (Nat.succ_lt_succ hk) s' (.step hbody hrest)

/-- The result of a loop that returns: `n` rounds have gone on, or some round has ended it. -/
theorem rounds_of_loopAtMost (h : loopAtMost body late n s = .ok b) :
    (∃ s', Rounds body n s s' ∧ late s' = b) ∨
      ∃ k < n, ∃ s', Rounds body k s s' ∧ body s' = .ok (.done b) := by
  induction n generalizing s with
  | zero => exact .inl ⟨s, .refl s, Except.ok.inj h⟩
  | succ n ih =>
    cases hbody : body s with
    | error e =>
      rw [loopAtMost_of_error hbody] at h
      cases h
    | ok r =>
      cases r with
      | done b' =>
        rw [loopAtMost_of_done hbody] at h
        obtain rfl := Except.ok.inj h
        exact .inr ⟨0, Nat.succ_pos n, s, .refl s, hbody⟩
      | next s₁ =>
        rw [loopAtMost_of_next hbody] at h
        rcases ih h with ⟨s', hrest, hlate⟩ | ⟨k, hk, s', hrest, hdone⟩
        · exact .inl ⟨s', .step hbody hrest, hlate⟩
        · exact .inr ⟨k + 1, Nat.succ_lt_succ hk, s', .step hbody hrest, hdone⟩

end Rules

end Foundation
