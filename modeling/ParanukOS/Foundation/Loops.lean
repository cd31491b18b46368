import ParanukOS.Foundation.Checked

/-!
# Counting loops of checked programs

`forRange n init body` runs the body for the indices `0, …, n - 1`, passing a state along; a loop
over the elements of a list is `List.foldlM`.  Both come with a rule in the style of a loop
invariant: if every round returns and takes the invariant to that of the next round, then the loop
returns and its result satisfies the invariant of the end.  The second form of each rule assumes
instead that the loop returns, and the third one says what is known when it does not.  `forStep` is
the loop with a step other than one.
-/

namespace Foundation

variable {σ α : Type}

/-- The loop over the indices below `n`, in increasing order. -/
def forRange (n : ℕ) (init : σ) (body : ℕ → σ → Checked σ) : Checked σ :=
  match n with
  | 0 => .ok init
  | n + 1 => forRange n init body >>= body n

/-- The invariant rule for `forRange`. -/
theorem forRange_rule (P : ℕ → σ → Prop) {n : ℕ} {init : σ} {body : ℕ → σ → Checked σ}
    (hinit : P 0 init)
    (hbody : ∀ i < n, ∀ s, P i s → ∃ s', body i s = .ok s' ∧ P (i + 1) s') :
    ∃ s, forRange n init body = .ok s ∧ P n s := by
  induction n with
  | zero => exact ⟨init, rfl, hinit⟩
  | succ n ih =>
    obtain ⟨s, hs, hP⟩ := ih fun i hi => hbody i (Nat.lt_succ_of_lt hi)
    obtain ⟨s', hs', hP'⟩ := hbody n (Nat.lt_succ_self n) s hP
    refine ⟨s', ?_, hP'⟩
    rw [forRange, hs, Checked.ok_bind, hs']

/-- The invariant rule for a loop over a list: the invariant speaks about the elements done. -/
theorem foldlM_rule (P : List α → σ → Prop) {l : List α} {init : σ} {body : σ → α → Checked σ}
    (hinit : P [] init)
    (hbody : ∀ done a rest s, l = done ++ a :: rest → P done s →
      ∃ s', body s a = .ok s' ∧ P (done ++ [a]) s') :
    ∃ s, l.foldlM body init = .ok s ∧ P l s := by
  have hsuffix : ∀ (rest done : List α) (s : σ), l = done ++ rest → P done s →
      ∃ s', rest.foldlM body s = .ok s' ∧ P l s' := by
    intro rest
    induction rest with
    | nil =>
      intro done s hl hP
      rw [List.append_nil] at hl
      exact ⟨s, rfl, hl ▸ hP⟩
    | cons a rest ih =>
      intro done s hl hP
      obtain ⟨s₁, hs₁, hP₁⟩ := hbody done a rest s hl hP
      obtain ⟨s', hs', hP'⟩ := ih (done ++ [a]) s₁ (by simpa using hl) hP₁
      refine ⟨s', ?_, hP'⟩
      rw [List.foldlM_cons, hs₁, Checked.ok_bind, hs']
  exact hsuffix l [] init rfl hinit

/-- The invariant rule for a `forRange` that is known to return. -/
theorem forRange_inv (P : ℕ → σ → Prop) {n : ℕ} {init s : σ} {body : ℕ → σ → Checked σ}
    (hinit : P 0 init) (hbody : ∀ i < n, ∀ s s', P i s → body i s = .ok s' → P (i + 1) s')
    (h : forRange n init body = .ok s) : P n s := by
  induction n generalizing s with
  | zero =>
    obtain rfl : init = s := by simpa [forRange] using h
    exact hinit
  | succ n ih =>
    obtain ⟨s₁, hs₁, hs⟩ := Checked.bind_eq_ok.mp h
    exact hbody n (Nat.lt_succ_self n) s₁ s
      (ih (fun i hi => hbody i (Nat.lt_succ_of_lt hi)) hs₁) hs

/-- The invariant rule for a loop over a list that is known to return.  The loop is in any monad in
which a computation that returns can be taken apart. -/
theorem foldlM_inv_of_returns {m : Type → Type} [Monad m] (R : m σ → σ → Prop)
    (hpure : ∀ s s', R (pure s) s' → s = s')
    (hbind : ∀ x (f : σ → m σ) s, R (x >>= f) s → ∃ s₁, R x s₁ ∧ R (f s₁) s)
    (P : List α → σ → Prop) {l : List α} {init s : σ} {body : σ → α → m σ} (hinit : P [] init)
    (hbody : ∀ done a rest s s', l = done ++ a :: rest → P done s → R (body s a) s' →
      P (done ++ [a]) s')
    (h : R (l.foldlM body init) s) : P l s := by
  have hsuffix : ∀ (rest done : List α) (s₀ : σ), l = done ++ rest → P done s₀ →
      R (rest.foldlM body s₀) s → P l s := by
    intro rest
    induction rest with
    | nil =>
      intro done s₀ hl hP hs
      obtain rfl := hpure s₀ s hs
      rwa [hl, List.append_nil]
    | cons a rest ih =>
      intro done s₀ hl hP hs
      rw [List.foldlM_cons] at hs
      obtain ⟨s₁, hs₁, hs⟩ := hbind _ _ s hs
      exact ih (done ++ [a]) s₁ (by simpa using hl) (hbody done a rest s₀ s₁ hl hP hs₁) hs
  exact hsuffix l [] init rfl hinit h

/-- The invariant rule for a loop of a checked program that is known to return. -/
theorem foldlM_inv (P : List α → σ → Prop) {l : List α} {init s : σ} {body : σ → α → Checked σ}
    (hinit : P [] init)
    (hbody : ∀ done a rest s s', l = done ++ a :: rest → P done s → body s a = .ok s' →
      P (done ++ [a]) s')
    (h : l.foldlM body init = .ok s) : P l s :=
  foldlM_inv_of_returns (fun (x : Checked σ) s => x = .ok s) (fun _ _ => Except.ok.inj)
    (fun _ _ _ => Checked.bind_eq_ok.mp) P hinit hbody h

/-- The rule for a `forRange` that may stop: then `Q` holds, which later rounds would keep. -/
theorem forRange_cases (P : ℕ → σ → Prop) (Q : ℕ → Prop) {n : ℕ} {init : σ}
    {body : ℕ → σ → Checked σ} (hinit : P 0 init)
    (hbody : ∀ i < n, ∀ s, P i s →
      (∃ s', body i s = .ok s' ∧ P (i + 1) s') ∨ ∃ e, body i s = .error e ∧ Q (i + 1))
    (hkept : ∀ i < n, Q i → Q (i + 1)) :
    (∃ s, forRange n init body = .ok s ∧ P n s) ∨
      ∃ e, forRange n init body = .error e ∧ Q n := by
  induction n with
  | zero => exact .inl ⟨init, rfl, hinit⟩
  | succ n ih =>
    have hprevious := ih (fun i hi => hbody i (Nat.lt_succ_of_lt hi))
      fun i hi => hkept i (Nat.lt_succ_of_lt hi)
    rw [forRange]
    rcases hprevious with ⟨s, hs, hP⟩ | ⟨e, he, hQ⟩
    · rw [hs, Checked.ok_bind]
      exact hbody n (Nat.lt_succ_self n) s hP
    · rw [he, Checked.error_bind]
      exact .inr ⟨e, rfl, hkept n (Nat.lt_succ_self n) hQ⟩

/-- The rule for a loop over a list that may stop: then `Q` holds, which later rounds would keep. -/
theorem foldlM_cases (P : List α → σ → Prop) (Q : List α → Prop) {l : List α} {init : σ}
    {body : σ → α → Checked σ} (hinit : P [] init)
    (hbody : ∀ done a s, P done s →
      (∃ s', body s a = .ok s' ∧ P (done ++ [a]) s') ∨
        ∃ e, body s a = .error e ∧ Q (done ++ [a]))
    (hkept : ∀ done a, Q done → Q (done ++ [a])) :
    (∃ s, l.foldlM body init = .ok s ∧ P l s) ∨ ∃ e, l.foldlM body init = .error e ∧ Q l := by
  induction l using List.reverseRecOn with
  | nil => exact .inl ⟨init, rfl, hinit⟩
  | append_singleton done a ih =>
    rw [List.foldlM_append]
    rcases ih with ⟨s, hs, hP⟩ | ⟨e, he, hQ⟩
    · rw [hs, Checked.ok_bind, List.foldlM_cons]
      rcases hbody done a s hP with ⟨s', hs', hP'⟩ | ⟨e, he, hQ⟩
      · rw [hs', Checked.ok_bind]
        exact .inl ⟨s', rfl, hP'⟩
      · rw [he, Checked.error_bind]
        exact .inr ⟨e, rfl, hQ⟩
    · rw [he, Checked.error_bind]
      exact .inr ⟨e, rfl, hkept done a hQ⟩

/-- The loop `while address < stop { body; address += step; }`: one round for each of the addresses
`start, start + step, …` below `stop`. -/
def forStep (start stop step : ℕ) (init : σ) (body : ℕ → σ → Checked σ) : Checked σ :=
  forRange (divCeil (stop - start) step) init fun i s => do
    let s ← body (start + i * step) s
    let _ ← addWord (start + i * step) step
    return s

/-- The addresses of the rounds are below the end. -/
lemma forStep_lt {start stop step i : ℕ} (hi : i < divCeil (stop - start) step) :
    start + i * step < stop := by
  rw [divCeil] at hi
  have hstep : 0 < step := by
    rcases Nat.eq_zero_or_pos step with rfl | h
    · rw [Nat.div_zero] at hi
      exact absurd hi (Nat.not_lt_zero i)
    · exact h
  have hle : (i + 1) * step ≤ stop - start + step - 1 := (Nat.le_div_iff_mul_le hstep).mp hi
  rw [Nat.succ_mul] at hle
  omega

/-- The invariant rule for a `forStep` that is known to return. -/
theorem forStep_inv (P : σ → Prop) {start stop step : ℕ} {init s : σ} {body : ℕ → σ → Checked σ}
    (hinit : P init)
    (hbody : ∀ address s s', start ≤ address → address < stop → P s →
      body address s = .ok s' → P s')
    (h : forStep start stop step init body = .ok s) : P s := by
  refine forRange_inv (fun _ => P) hinit (fun i hi s s' hs hround => ?_) h
  obtain ⟨s₁, hs₁, hround⟩ := Checked.bind_eq_ok.mp hround
  obtain ⟨-, -, hround⟩ := Checked.bind_eq_ok.mp hround
  obtain rfl := Except.ok.inj hround
  exact hbody _ s s₁ (Nat.le_add_right _ _) (forStep_lt hi) hs hs₁

/-- The rule for a `forStep` that may stop, in terms of the number of rounds.  The address behind
the last round is a word. -/
theorem forStep_cases (P : ℕ → σ → Prop) (Q : ℕ → Prop) {start stop step : ℕ} {init : σ}
    {body : ℕ → σ → Checked σ} (hword : stop + step ≤ 2 ^ 64) (hinit : P 0 init)
    (hbody : ∀ i s, start + i * step < stop → P i s →
      (∃ s', body (start + i * step) s = .ok s' ∧ P (i + 1) s') ∨
        ∃ e, body (start + i * step) s = .error e ∧ Q (i + 1))
    (hkept : ∀ i, Q i → Q (i + 1)) :
    (∃ s, forStep start stop step init body = .ok s ∧ P (divCeil (stop - start) step) s) ∨
      ∃ e, forStep start stop step init body = .error e ∧ Q (divCeil (stop - start) step) := by
  refine forRange_cases P Q hinit (fun i hi s hs => ?_) fun i _ => hkept i
  have hlt := forStep_lt hi
  rw [addWord_of_lt (by omega)]
  rcases hbody i s hlt hs with ⟨s', heq, hs'⟩ | ⟨e, heq, hQ⟩
  · rw [heq]
    exact .inl ⟨s', rfl, hs'⟩
  · rw [heq]
    exact .inr ⟨e, rfl, hQ⟩

end Foundation
